import StackCoroutine.Proofs.Reference.Execution
import StackCoroutine.Proofs.Machine.Described
import StackCoroutine.Proofs.Machine.Histories

/-!
No reference ever dangles. One step of a run leaves no reference without its object, so no run does,
nor any sequence of invocations and coroutine runs on classes however they are loaded; and no error
they end in is that of a dangling reference.
-/

namespace StackCoroutine

namespace Machine

open Exec

/-- What is in progress refers to objects of a heap of that size, and so does what a run ends with;
its error is not that of a dangling reference. -/
def Progress.Sound (size : Nat) : Progress → Prop
  | .done (.failed cause) => size ≤ 2 ^ 32 → cause.isDangling = false
  | progress => Within size progress.references

variable {size : Nat} {callers : List Activation} {arguments : List Value}

theorem Progress.Sound.within {progress : Progress} (sound : progress.Sound size) :
    Within size progress.references := by
  rcases progress with _ | _ | _ | _
  case done.failed => exact within_nil
  all_goals exact sound

theorem placeArguments_within {fault : MachineError} {slot : Nat} {locals left : List Value}
    {values : List (Value × Nat)} (old : Within size (Value.listReferences locals))
    (given : ∀ value ∈ values, Within size value.1.references)
    (placed : Activation.placeArguments fault slot locals values = .ok left) :
    Within size (Value.listReferences left) := by
  induction values generalizing slot locals with
  | nil =>
      cases placed
      exact old
  | cons value rest ih =>
      obtain ⟨first, others⟩ := List.forall_mem_cons.mp given
      unfold Activation.placeArguments at placed
      split at placed
      · refine ih (within_flatMap.mpr fun other member => ?_) others placed
        rcases List.mem_or_eq_of_mem_set member with there | rfl
        · exact within_flatMap.mp old other there
        · exact first
      · cases placed

theorem placeArguments_error {fault cause : MachineError} {slot : Nat} {locals : List Value}
    {values : List (Value × Nat)}
    (refused : Activation.placeArguments fault slot locals values = .error cause) :
    cause = fault := by
  induction values generalizing slot locals with
  | nil => cases refused
  | cons value rest ih =>
      unfold Activation.placeArguments at refused
      split at refused
      · exact ih refused
      · cases refused
        rfl

/-- An invocation begins with its arguments, and nulls; no other references are in it. -/
theorem activation_enter_within (method : PreparedMethod)
    (given : Within size (Value.listReferences arguments)) :
    match Activation.enter method arguments with
    | .ok activation => Within size activation.references
    | .error cause => cause.isDangling = false := by
  by_cases counted : arguments.length = method.parameters.length + method.method.receiverSlots
  · have entered : Activation.enter method arguments = (Activation.placeArguments
        (.type (.tooFewLocals method.displayName)) 0
        (List.replicate method.method.maxLocals.toNat .null) (arguments.zip
          (List.replicate method.method.receiverSlots 1 ++ method.parameters.map ValueType.size))).map
        fun locals => ⟨method, 0, locals, []⟩ := by
      simp [Activation.enter, counted, Except.map, bind, Except.bind, pure, Except.pure]
    rw [entered]
    cases placed : Activation.placeArguments (.type (.tooFewLocals method.displayName)) 0
        (List.replicate method.method.maxLocals.toNat .null) (arguments.zip
          (List.replicate method.method.receiverSlots 1 ++ method.parameters.map ValueType.size)) with
    | ok locals =>
        refine within_append.mpr ⟨placeArguments_within (within_flatMap.mpr fun value member => ?_)
          (fun value member => ?_) placed, within_nil⟩
        · rw [List.eq_of_mem_replicate member]
          exact within_nil
        · exact within_flatMap.mp given value.1 (List.of_mem_zip member).1
    | error cause =>
        show cause.isDangling = false
        rw [placeArguments_error placed]
        rfl
  · have refused : Activation.enter method arguments = .error (.type (.argumentCount
        method.displayName (method.parameters.length + method.method.receiverSlots)
        arguments.length)) := by
      unfold Activation.enter
      rw [if_pos counted]
      rfl
    rw [refused]
    exact rfl

theorem enter_sound (method : PreparedMethod)
    (given : Within size (Value.listReferences arguments))
    (waiting : Within size (callers.flatMap Activation.references)) :
    (enter method arguments callers).Sound size := by
  have entered := activation_enter_within method given
  unfold enter
  split
  · exact fun _ => rfl
  split
  · rename_i activation found
    rw [found] at entered
    exact within_append.mpr ⟨entered, waiting⟩
  · rename_i cause found
    rw [found] at entered
    exact fun _ => entered

theorem leave_sound {value : Option Value} (given : Within size (Value.optionReferences value))
    (waiting : Within size (callers.flatMap Activation.references)) :
    (leave value callers).Sound size := by
  cases callers with
  | nil => exact given
  | cons caller rest =>
      obtain ⟨first, others⟩ := within_append.mp waiting
      obtain ⟨locals, stack⟩ := within_append.mp first
      refine within_append.mpr ⟨within_append.mpr ⟨locals, ?_⟩, others⟩
      rw [List.flatMap_append]
      exact within_append.mpr ⟨given, stack⟩

theorem unwind_sound (classes : ClassTable) {heap : Heap} (closed : heap.Closed)
    {exception : ObjectRef} (inside : exception.Within heap.size)
    (waiting : Within heap.size (callers.flatMap Activation.references)) :
    (unwind classes heap exception callers).Sound heap.size := by
  induction callers with
  | nil => exact within_cons.mpr ⟨inside, within_nil⟩
  | cons activation rest ih =>
      obtain ⟨first, others⟩ := within_append.mp waiting
      have named := Answers.className closed inside
      unfold unwind
      split
      · rename_i fault failed
        rw [failed] at named
        exact named
      · split
        · refine within_append.mpr ⟨within_append.mpr ⟨(within_append.mp first).1, ?_⟩, others⟩
          exact within_cons.mpr ⟨inside, within_nil⟩
        · exact ih others

/-- A step leaves no reference without its object, and a heap no smaller. -/
theorem step_sound (classes : ClassTable) {activations : List Activation} {world : World}
    (closed : world.Closed)
    (held : Within world.heap.size (activations.flatMap Activation.references)) :
    world.heap.size ≤ (step classes activations world).2.heap.size ∧
      (step classes activations world).2.Closed ∧
      (step classes activations world).1.Sound (step classes activations world).2.heap.size := by
  cases activations with
  | nil => exact ⟨Nat.le_refl _, closed, within_nil⟩
  | cons activation callers =>
      obtain ⟨innermost, waiting⟩ := within_append.mp held
      unfold step
      cases there : activation.method.code[activation.index]? with
      | none =>
          simp only [there]
          exact ⟨Nat.le_refl _, closed, fun _ => rfl⟩
      | some insn =>
          have executed : Exec.Sound world.heap.size _
              ((Execution.execute classes insn).run activation) :=
            Execution.execute_sound insn activation innermost
          have executed := executed world closed rfl
          simp only [there]
          rcases outcome : ((Execution.execute classes insn).run activation).run world with
            ⟨(cause | exception) | ⟨flow, left⟩, after⟩
          all_goals
            simp only [outcome] at executed
            obtain ⟨grown, kept, good⟩ := executed
          · exact ⟨grown, kept, good⟩
          · refine ⟨grown, kept, unwind_sound classes (World.closed_iff.mp kept).1 good ?_⟩
            exact held.mono grown
          · have waiting := waiting.mono grown
            obtain ⟨going, inside⟩ := within_append.mp good
            cases flow with
            | next | jump place => exact ⟨grown, kept, within_append.mpr ⟨inside, waiting⟩⟩
            | «return» value => exact ⟨grown, kept, leave_sound going waiting⟩
            | call method arguments =>
                exact ⟨grown, kept, enter_sound method going (within_append.mpr ⟨inside, waiting⟩)⟩

theorem advance_sound (classes : ClassTable) (steps : Nat) {progress : Progress} {world : World}
    (closed : world.Closed) (sound : progress.Sound world.heap.size) :
    world.heap.size ≤ (advance classes steps progress world).2.heap.size ∧
      (advance classes steps progress world).2.Closed ∧
      (advance classes steps progress world).1.Sound
        (advance classes steps progress world).2.heap.size := by
  -- From the front, as the run goes: the heap after the first step is the one the others start with.
  induction steps generalizing progress world with
  | zero => cases progress <;> exact ⟨Nat.le_refl _, closed, sound⟩
  | succ steps ih =>
      cases progress with
      | done outcome => exact ⟨Nat.le_refl _, closed, sound⟩
      | running activations =>
          obtain ⟨grown, kept, next⟩ := step_sound classes closed sound
          obtain ⟨grown', last⟩ := ih kept next
          exact ⟨Nat.le_trans grown grown', last⟩

/-- The whole run, which fails where its limit ends it. -/
theorem run_sound (classes : ClassTable) (limit : Nat) {progress : Progress} {world : World}
    (closed : world.Closed) (sound : progress.Sound world.heap.size) :
    world.heap.size ≤ (run classes limit progress world).2.heap.size ∧
      (run classes limit progress world).2.Closed ∧
      (Progress.done (run classes limit progress world).1).Sound
        (run classes limit progress world).2.heap.size := by
  obtain ⟨grown, kept, ended⟩ := advance_sound classes limit closed sound
  have split := run_advance classes limit 0 progress world
  rw [Nat.add_zero] at split
  rw [split]
  generalize advance classes limit progress world = state at *
  obtain ⟨progress, after⟩ := state
  cases progress with
  | running activations => exact ⟨grown, kept, fun _ => rfl⟩
  | done outcome => exact ⟨grown, kept, ended⟩

end Machine

/-- The heap has an object for each of the references. -/
def Heap.Has (heap : Heap) (references : List ObjectRef) : Prop :=
  ∀ object ∈ references, object.index.toNat < heap.size

theorem Heap.Has.within {heap : Heap} {references : List ObjectRef} (has : heap.Has references) :
    Within heap.size references := fun object member _ => has object member

theorem Within.has {heap : Heap} {references : List ObjectRef}
    (within : Within heap.size references) (bounded : heap.size ≤ 2 ^ 32) : heap.Has references :=
  fun object member => within object member bounded

/-- The heap has an object for each reference of the arguments and the context. -/
def Heap.Knows (heap : Heap) (arguments : List Value) (context : Option (Context Value)) : Prop :=
  heap.Has (Value.listReferences arguments ++ context.toList.flatMap Context.references)

theorem Heap.Knows.within {heap : Heap} {arguments : List Value} {context : Option (Context Value)}
    (knows : heap.Knows arguments context) :
    Within heap.size (Value.listReferences arguments) ∧
      ∀ current ∈ context, Within heap.size current.references := by
  obtain ⟨passed, held⟩ := within_append.mp (Heap.Has.within knows)
  exact ⟨passed, fun current attached => within_flatMap.mp held current (Option.mem_toList.mpr attached)⟩

namespace Context

variable {size : Nat} {context : Context Value}

theorem pushArguments_within {arguments : List Value} (within : Within size context.references)
    (given : Within size (Value.listReferences arguments)) :
    Within size (context.pushArguments arguments).references := by
  obtain ⟨saved, passed, held⟩ := within_iff.mp within
  exact within_iff.mpr ⟨saved, List.forall_mem_cons.mpr ⟨given, passed⟩, held⟩

theorem popArguments_within (within : Within size context.references) :
    Within size context.popArguments.references := by
  obtain ⟨saved, passed, held⟩ := within_iff.mp within
  exact within_iff.mpr ⟨saved, fun frame member => passed frame (List.mem_of_mem_tail member), held⟩

theorem reset_within (within : Within size context.references) :
    Within size context.reset.references := within_frames within (List.nil_subset _) rfl rfl

end Context

namespace Vm

open Machine

/-- What a run of a machine comes to refers to objects of the heap that is left, and its error is
not that of a dangling reference. -/
def Settles (size : Nat) : Except MachineError (Option Value) → Prop
  | .ok value => Within size (Value.optionReferences value)
  | .error cause => size ≤ 2 ^ 32 → cause.isDangling = false

theorem uncaught_other {heap : Heap} (closed : heap.Closed) {exception : ObjectRef}
    (inside : exception.Within heap.size) (bounded : heap.size ≤ 2 ^ 32) :
    (uncaught heap exception).isDangling = false := by
  have found := Answers.get closed inside
  unfold uncaught
  split
  · rename_i fault failed
    rw [failed] at found
    exact found bounded
  · exact rfl

theorem staticMethod_other {vm : Vm} {method : MethodRef} {cause : MachineError}
    (failed : vm.staticMethod method = .error cause) : cause.isDangling = false := by
  unfold staticMethod at failed
  split at failed
  · cases failed
    rfl
  · split at failed <;> cases failed
    rfl

variable {vm : Vm} {arguments : List Value} {context : Option (Context Value)}

theorem world_closed_iff :
    (vm.world context).Closed ↔ (vm.world none).Closed ∧
      ∀ current ∈ context, Within vm.state.heap.size current.references := by
  simp [World.closed_iff, world, and_assoc]

theorem released_closed {vm : Vm} (closed : (vm.world context).Closed) :
    (({ vm with monitors := .empty } : Vm).world context).Closed := by
  obtain ⟨heap, statics, _, held⟩ := World.closed_iff.mp closed
  exact World.closed_iff.mpr ⟨heap, statics, within_nil, held⟩

theorem invokeStatic_sound (closed : (vm.world context).Closed)
    (given : Within vm.state.heap.size (Value.listReferences arguments)) (limit : Nat)
    (method : MethodRef) {result : Except MachineError (Option Value)} {after : Vm}
    {left : Option (Context Value)}
    (invoked : vm.invokeStatic limit method arguments context = (result, after, left)) :
    vm.state.heap.size ≤ after.state.heap.size ∧ (after.world left).Closed ∧
      Settles after.state.heap.size result := by
  unfold invokeStatic at invoked
  cases found : vm.staticMethod method with
  | error cause =>
      simp only [found, Prod.mk.injEq] at invoked
      obtain ⟨rfl, rfl, rfl⟩ := invoked
      exact ⟨Nat.le_refl _, closed, fun _ => staticMethod_other found⟩
  | ok prepared =>
      have begun : (enter prepared arguments []).Sound vm.state.heap.size :=
        enter_sound prepared given within_nil
      obtain ⟨grown, kept, ended⟩ := run_sound vm.classes limit closed begun
      simp only [found] at invoked
      generalize run vm.classes limit (enter prepared arguments []) (vm.world context) = ran at *
      obtain ⟨outcome, world⟩ := ran
      have whole : ((vm.ofWorld world).world world.context).Closed := kept
      cases outcome with
      | returned value =>
          obtain ⟨rfl, rfl, rfl⟩ := Prod.mk.injEq .. ▸ invoked
          exact ⟨grown, whole, ended⟩
      | thrown exception =>
          cases invoked
          refine ⟨grown, released_closed whole, fun bounded => ?_⟩
          exact uncaught_other (World.closed_iff.mp kept).1 (within_cons.mp ended).1 bounded
      | failed cause =>
          cases invoked
          exact ⟨grown, released_closed whole, ended⟩

theorem initStatic_closed {className : String} {state next : MachineState} {field : Field}
    (closed : state.heap.Closed ∧ Within state.heap.size state.statics.references)
    (done : initStatic className state field = .ok next) :
    state.heap.size ≤ next.heap.size ∧ next.heap.Closed ∧
      Within next.heap.size next.statics.references := by
  obtain ⟨heap, statics⟩ := closed
  obtain ⟨⟨value, grown⟩, made, placed⟩ := Outcome.bind_eq_ok.mp done
  cases placed
  have initial : state.heap.size ≤ grown.size ∧ grown.Closed ∧
      Within grown.size value.references := by
    unfold initialValue at made
    split at made
    case h_5 content _ =>
      cases made
      obtain ⟨kept, larger, within⟩ := heap.intern content
      exact ⟨larger, kept, within_cons.mpr ⟨within, within_nil⟩⟩
    case h_6 =>
      split at made <;> cases made
      exact ⟨Nat.le_refl _, heap, Value.ofType_references _ ▸ within_nil⟩
    all_goals
      cases made
      exact ⟨Nat.le_refl _, heap, within_nil⟩
  obtain ⟨larger, kept, fits⟩ := initial
  exact ⟨larger, kept, Slots.within_insertNew (statics.mono larger) fits⟩

theorem loadClasses_closed (closed : (vm.world none).Closed) (files : List ClassFile) :
    ((vm.loadClasses files).2.world none).Closed := by
  unfold loadClasses
  split
  · exact closed
  · split
    · rename_i loaded _ _ state initialised
      obtain ⟨heap, statics, monitors, _⟩ := World.closed_iff.mp closed
      have kept := Outcome.foldlM_keeps (fun state : MachineState =>
          vm.state.heap.size ≤ state.heap.size ∧ state.heap.Closed ∧
            Within state.heap.size state.statics.references)
        (fun state field next good done => by
          obtain ⟨larger, others⟩ := initStatic_closed good.2 done
          exact ⟨Nat.le_trans good.1 larger, others⟩)
        ⟨Nat.le_refl _, heap, statics⟩ initialised
      exact World.closed_iff.mpr ⟨kept.2.1, kept.2.2, monitors.mono kept.1, nofun⟩
    · exact closed

/-- A coroutine runs to its next suspension or its end without leaving a reference without its
object, whatever it ends in. -/
theorem execute_sound {runner after : Runner MachineCoroutine Value} (limit : Nat)
    {result : Except (CoroutineError MachineError) Bool}
    (closed : (runner.state.vm.world (some runner.context)).Closed)
    (given : Within runner.state.vm.state.heap.size (Value.listReferences arguments))
    (ran : runner.execute (MachineCoroutine.body limit) arguments = (result, after)) :
    runner.state.vm.state.heap.size ≤ after.state.vm.state.heap.size ∧
      (after.state.vm.world (some after.context)).Closed ∧
      ∀ cause, result = .error (.execution cause) →
        after.state.vm.state.heap.size ≤ 2 ^ 32 → cause.isDangling = false := by
  unfold Runner.execute at ran
  split at ran
  · cases ran
    exact ⟨Nat.le_refl _, closed, by simp⟩
  obtain ⟨machine, held⟩ := world_closed_iff.mp closed
  have passed := Context.pushArguments_within (held _ rfl) given
  rcases invoked : runner.state.vm.invokeStatic limit runner.state.entry [.context]
      (some (runner.context.pushArguments arguments)) with ⟨outcome, vm, left⟩
  have started : (runner.state.vm.world (some (runner.context.pushArguments arguments))).Closed := by
    refine world_closed_iff.mpr ⟨machine, ?_⟩
    rintro _ ⟨⟩
    exact passed
  obtain ⟨grown, kept, settled⟩ := invokeStatic_sound started within_nil limit _ invoked
  have inside : Within vm.state.heap.size
      (left.getD (runner.context.pushArguments arguments)).references := by
    cases left with
    | none => exact passed.mono grown
    | some current => exact (world_closed_iff.mp kept).2 current rfl
  have popped := Context.popArguments_within inside
  -- Whatever the context is in the end, the machine beside it is that of the invocation.
  have whole : ∀ {context : Context Value}, Within vm.state.heap.size context.references →
      (vm.world (some context)).Closed := by
    intro context within
    refine world_closed_iff.mpr ⟨(world_closed_iff.mp kept).1, ?_⟩
    rintro _ ⟨⟩
    exact within
  simp only [MachineCoroutine.body, invoked] at ran
  cases outcome with
  | error cause =>
      cases ran
      refine ⟨grown, whole popped, ?_⟩
      rintro _ ⟨⟩ bounded
      exact settled bounded
  | ok value =>
      simp only [Except.map] at ran
      split at ran
      · split at ran <;> cases ran
        · rename_i next turned
          refine ⟨grown, whole ?_, by simp⟩
          obtain ⟨mode, _, made⟩ := Outcome.bind_eq_ok.mp turned
          cases made
          exact Context.within_frames popped (List.Subset.refl _) rfl rfl
        · exact ⟨grown, whole popped, by simp⟩
      · cases ran
        exact ⟨grown, whole (Context.reset_within popped), by simp⟩

theorem Reached.closed (reached : vm.Reached Heap.Knows) : (vm.world none).Closed := by
  -- Over the calls that led here; each keeps what the ones before it left.
  induction reached with
  | empty => exact World.closed_iff.mpr ⟨within_nil, within_nil, within_nil, nofun⟩
  | load files _ ih => exact loadClasses_closed ih files
  | @text vm content _ ih =>
      obtain ⟨heap, statics, monitors, _⟩ := World.closed_iff.mp ih
      have larger := vm.state.heap.size_le_alloc (.text content)
      exact World.closed_iff.mpr
        ⟨heap.alloc within_nil, statics.mono larger, monitors.mono larger, nofun⟩
  | invoke limit method _ given ih =>
      obtain ⟨passed, held⟩ := given.within
      have closed := world_closed_iff.mpr ⟨ih, held⟩
      exact (world_closed_iff.mp (invokeStatic_sound closed passed limit method rfl).2.1).1
  | execute limit _ given ih =>
      obtain ⟨passed, held⟩ := given.within
      have closed := world_closed_iff.mpr ⟨ih, held⟩
      exact (world_closed_iff.mp (execute_sound limit closed passed rfl).2.1).1

/-- No reference dangles. On a machine that is reached by loading, invoking and running, with
arguments and contexts that refer to its objects, every reference of the machine, of every state of
every run, and of whatever a run leaves is to an object of the heap, as long as references number
the objects; so no call ends in the error of a dangling reference. -/
theorem no_reference_dangles (reached : vm.Reached Heap.Knows) :
    (vm.state.heap.size ≤ 2 ^ 32 → vm.state.heap.Has (vm.world none).references) ∧
    (∀ (method : MethodRef) (arguments : List Value) (context : Option (Context Value)),
      vm.state.heap.Knows arguments context →
      (∀ prepared steps progress world, vm.staticMethod method = .ok prepared →
        advance vm.classes steps (enter prepared arguments []) (vm.world context) =
          (progress, world) →
        world.heap.size ≤ 2 ^ 32 → world.heap.Has (progress.references ++ world.references)) ∧
      ∀ limit result after left,
        vm.invokeStatic limit method arguments context = (result, after, left) →
        after.state.heap.size ≤ 2 ^ 32 →
        after.state.heap.Has (after.world left).references ∧
          (∀ value, result = .ok value → after.state.heap.Has (Value.optionReferences value)) ∧
          ∀ cause, result = .error cause → cause.isDangling = false) ∧
    ∀ (runner : Runner MachineCoroutine Value) (arguments : List Value) limit result after,
      runner.state.vm = vm →
      vm.state.heap.Knows arguments (some runner.context) →
      runner.execute (MachineCoroutine.body limit) arguments = (result, after) →
      after.state.vm.state.heap.size ≤ 2 ^ 32 →
      after.state.vm.state.heap.Has (after.state.vm.world (some after.context)).references ∧
        ∀ cause, result = .error (.execution cause) → cause.isDangling = false := by
  have closed := reached.closed
  refine ⟨fun bounded => Within.has closed bounded, fun method arguments context given => ?_, ?_⟩
  · obtain ⟨passed, held⟩ := given.within
    have started : (vm.world context).Closed := world_closed_iff.mpr ⟨closed, held⟩
    constructor
    · intro prepared steps progress world _ advanced bounded
      have begun : (enter prepared arguments []).Sound vm.state.heap.size :=
        enter_sound prepared passed within_nil
      have reachedState := advance_sound vm.classes steps started begun
      rw [advanced] at reachedState
      obtain ⟨_, kept, sound⟩ := reachedState
      exact Within.has (within_append.mpr ⟨sound.within, kept⟩) bounded
    · intro limit result after left invoked bounded
      obtain ⟨_, kept, settled⟩ := invokeStatic_sound started passed limit method invoked
      refine ⟨Within.has kept bounded, ?_, ?_⟩
      · rintro value rfl
        exact Within.has settled bounded
      · rintro cause rfl
        exact settled bounded
  · rintro runner arguments limit result after rfl given ran bounded
    obtain ⟨passed, held⟩ := given.within
    have started : (runner.state.vm.world (some runner.context)).Closed :=
      world_closed_iff.mpr ⟨closed, held⟩
    obtain ⟨_, kept, other⟩ := execute_sound limit started passed ran
    exact ⟨Within.has kept bounded, fun cause failed => other cause failed bounded⟩

/-- A class that keeps a text constant in an array and gives the array. -/
def storing : ClassFile :=
  { ClassFile.empty "Storing" with
    methods := [⟨Access.isStatic, "run", "(Lresumable/SuspendableContext;)Lstd/Object;", 4, 2,
      [.intConst 2, .newArray (.object "std/Object"), .store .ref 1, .load .ref 1, .intConst 0,
        .textConst "kept", .arrayStore .ref, .load .ref 1, .return (some .ref)], []⟩] }

def storingVm : Vm := ((Vm.empty.loadClasses [storing]).2.newText "given").2

/-- The text given is the payload; array and constant become the second and the third object. -/
theorem no_reference_dangles_storing :
    let context : Context Value := { Context.empty with payload := some (.ref ⟨0⟩) }
    let ran := storingVm.invokeStatic 20
      ⟨"Storing", "run", "(Lresumable/SuspendableContext;)Lstd/Object;"⟩ [.context] (some context)
    storingVm.Reached Heap.Knows ∧ ran.1 = .ok (some (.ref ⟨1⟩)) ∧ ran.2.1.state.heap.size = 3 ∧
      (ran.2.1.world ran.2.2).references = [⟨2⟩, ⟨2⟩, ⟨0⟩] ∧
      ran.2.1.state.heap.Has (ran.2.1.world ran.2.2).references ∧
      ∀ cause, ran.1 = .error cause → cause.isDangling = false := by
  intro context ran
  have reached : storingVm.Reached Heap.Knows := .text "given" (.load [storing] .empty)
  have given : storingVm.state.heap.Knows [.context] (some context) := by
    unfold Heap.Knows Heap.Has
    decide +kernel
  have size : ran.2.1.state.heap.size = 3 := by decide +kernel
  have settled := ((no_reference_dangles reached).2.1 _ [.context] (some context) given).2 20
    ran.1 ran.2.1 ran.2.2 rfl (by rw [size]; decide)
  exact ⟨reached, by decide +kernel, size, by decide +kernel, settled.1, settled.2.2⟩

end Vm

end StackCoroutine
