import Mathlib.Data.List.InsertIdx
import StackCoroutine.Proofs.Point.Handing
import StackCoroutine.Proofs.Point.Runs

/-!
Saved frames under the classes they were saved with. A frame that generated code pushes stopped at a
point of a class that was instrumented, so the field of that point is there, and the frame is accepted
as long as the class is loaded. A suspended coroutine is accepted if all its frames come from generated
code.
-/

namespace StackCoroutine

theorem ClassFile.instrument_name {file output : ClassFile} {hierarchy : Hierarchy}
    {settings : InstrumentSettings} {report : ClassReport}
    (done : file.instrument hierarchy settings = .ok (output, report)) : output.name = file.name := by
  unfold instrument at done
  split at done
  · split at done
    · cases done
      rfl
    · cases done
  · split at done
    · cases done
      rfl
    · obtain ⟨progress, _, made⟩ := Outcome.bind_eq_ok.mp done
      cases made
      rfl

/-- The class is loaded as it was instrumented, and the report is that of its instrumentation. -/
structure ClassTable.Instruments (classes : ClassTable) (file : ClassFile) (hierarchy : Hierarchy)
    (settings : InstrumentSettings) (report : ClassReport) : Prop where
  unmarked : file.Unmarked
  loaded : ∃ loaded, classes.find? file.name = some loaded ∧
    file.instrument hierarchy settings = .ok (loaded.file, report)

/-- The instruction is the one by which code generated for a point of the class pushes a saved
frame. -/
def ClassFile.HandsOver (file : ClassFile) (hierarchy : Hierarchy) (settings : InstrumentSettings)
    (activation : Activation) : Prop :=
  ∃ plan point start, file.HasPlan hierarchy settings plan ∧ point ∈ plan.points ∧
    activation.method.Has start (plan.pushSavedFrame point) ∧ activation.index = start + 9

namespace ClassTable.Instruments

variable {classes : ClassTable} {file : ClassFile} {hierarchy : Hierarchy}
  {settings : InstrumentSettings} {report : ClassReport}

theorem pointExists (instruments : classes.Instruments file hierarchy settings report)
    {methodId point : Int32} (natural : 0 ≤ point) :
    SavedFrame.pointExists classes.declaresField file.name methodId point =
      .ok (decide (∃ method ∈ report.methods, method.methodId = methodId ∧
        point.toInt.toNat < method.pointCount)) := by
  obtain ⟨loaded, found, done⟩ := instruments.loaded
  exact pointExists_iff instruments.unmarked done found natural

theorem absent (instruments : classes.Instruments file hierarchy settings report) :
    file.findField? Protocol.markerField = none :=
  List.find?_eq_none.mpr fun field inside => by simpa using (instruments.unmarked field inside).1

/-- Every point of the class has code that pushes a saved frame in a method of the loaded class. -/
theorem has (instruments : classes.Instruments file hierarchy settings report)
    (accepted : classes.Accepted) {plan : MethodPlan} (plans : file.HasPlan hierarchy settings plan)
    {point : Point} (member : point ∈ plan.points) :
    ∃ prepared start, classes.Holds prepared ∧ prepared.Has start (plan.pushSavedFrame point) := by
  obtain ⟨loaded, found, done⟩ := instruments.loaded
  obtain ⟨prepared, inside, start, has⟩ := plans.has accepted instruments.absent found done member
  obtain ⟨entry, listed, rfl⟩ := find?_mem found
  exact ⟨prepared, start, ⟨entry, listed, inside⟩, has⟩

/-- A saved frame of a point of the class is accepted. -/
theorem isValid (instruments : classes.Instruments file hierarchy settings report)
    {plan : MethodPlan} (plans : file.HasPlan hierarchy settings plan) {point : Point}
    (member : point ∈ plan.points) {frame : SavedFrame Value} (isOf : frame.IsOf plan point) :
    frame.isValid classes.declaresField = .ok true := by
  obtain ⟨loaded, found, done⟩ := instruments.loaded
  obtain ⟨owner, natural, listed⟩ := plans.lists instruments.absent done member
  obtain ⟨className, methodId, number⟩ := isOf
  unfold SavedFrame.isValid
  rw [className, methodId, number, owner, instruments.pointExists natural]
  exact congrArg Except.ok (decide_eq_true ((ClassFile.lists_iff natural).mp listed))

/-- A class that has been loaded alone, as it was instrumented. -/
theorem alone {table : ClassTable} {output : ClassFile} (unmarked : file.Unmarked)
    (done : file.instrument hierarchy settings = .ok (output, report))
    (new : table.find? file.name = none)
    (listed : ((table.loadAll [output]).2.find? file.name).isSome) :
    (table.loadAll [output]).2.Instruments file hierarchy settings report := by
  obtain ⟨loaded, found⟩ := Option.isSome_iff_exists.mp listed
  have named := ClassFile.instrument_name done
  have same : loaded.file = output := ClassTable.file_of_loadAll (named ▸ new) (named ▸ found)
  exact ⟨unmarked, loaded, found, same ▸ done⟩

end ClassTable.Instruments

namespace Vm

variable {vm : Vm} {given : Heap → List Value → Option (Context Value) → Prop}
  {prepared : PreparedMethod} {arguments : List Value} {context : Option (Context Value)}

/-- What generated code pushes in a run is a saved frame that is accepted. -/
theorem Reached.handsOver (reached : vm.Reached given) (held : vm.classes.Holds prepared)
    {steps : Nat} {activation : Activation} {callers : List Activation} {world : World}
    (ran : Machine.advance vm.classes steps (Machine.enter prepared arguments []) (vm.world context) =
      (.running (activation :: callers), world)) (bounded : world.heap.size ≤ 2 ^ 32)
    {file : ClassFile} {hierarchy : Hierarchy} {settings : InstrumentSettings} {report : ClassReport}
    (instruments : vm.classes.Instruments file hierarchy settings report)
    (hands : file.HandsOver hierarchy settings activation) :
    let later := (Machine.step vm.classes (activation :: callers) world).2
    later.context = world.context ∨ ∃ current frame, world.context = some current ∧
      later.context = some (current.push frame) ∧
      frame.isValid vm.classes.declaresField = .ok true := by
  obtain ⟨plan, point, start, plans, member, has, last⟩ := hands
  rcases reached.pushes held arguments context steps ran bounded has last with
    same | ⟨current, frame, runs, pushed, isOf⟩
  · exact Or.inl same
  · exact Or.inr ⟨current, frame, runs, pushed, instruments.isValid plans member isOf⟩

end Vm

/-! ### Coroutines -/

/-- The frames saved in the coroutine that runs, if one does. -/
def World.frames (world : World) : List (SavedFrame Value) :=
  world.context.toList.flatMap fun context => context.chain.frames

theorem Context.mem_push {context : Context Value} {frame other : SavedFrame Value}
    (member : other ∈ (context.push frame).chain.frames) :
    other = frame ∨ other ∈ context.chain.frames :=
  List.eq_or_mem_of_mem_insertIdx member

theorem Context.isCompatible_of_all {declares : FieldLookup} {context : Context Value}
    (valid : ∀ frame ∈ context.chain.frames, frame.isValid declares = .ok true) :
    context.isCompatible declares = .ok true := by
  unfold isCompatible
  generalize context.chain.frames = frames at valid
  induction frames with
  | nil => rfl
  | cons frame rest ih =>
      rw [List.foldlM_cons, if_pos rfl, valid frame List.mem_cons_self]
      exact ih fun other member => valid other (List.mem_cons_of_mem _ member)

/-- In the first steps of a run only generated code pushes saved frames: every other instruction leaves
no frames but those that were there. -/
def Machine.PushesGenerated (classes : ClassTable) (limit : Nat) (progress : Progress)
    (world : World) : Prop :=
  ∀ steps < limit, ∀ activation callers later,
    advance classes steps progress world = (.running (activation :: callers), later) →
    (∃ file hierarchy settings report, classes.Instruments file hierarchy settings report ∧
      file.HandsOver hierarchy settings activation) ∨
    (step classes (activation :: callers) later).2.frames ⊆ later.frames

namespace Runner

/-- In the next run of the coroutine only generated code pushes saved frames. -/
def PushesGenerated (runner : Runner MachineCoroutine Value) (limit : Nat) (arguments : List Value) :
    Prop :=
  ∀ prepared, runner.state.vm.staticMethod runner.state.entry = .ok prepared →
    Machine.PushesGenerated runner.state.vm.classes limit (Machine.enter prepared [.context] [])
      (runner.state.vm.world (some (runner.context.pushArguments arguments)))

/-- Coroutines into which only generated code has pushed saved frames. -/
inductive Generated : Runner MachineCoroutine Value → Prop where
  | fresh {vm : Vm} (className method : String) : vm.Arises →
      Generated (.ofParts ⟨vm, className, method⟩ .empty)
  | execute {runner : Runner MachineCoroutine Value} (limit : Nat) (arguments : List Value) :
      Generated runner → runner.PushesGenerated limit arguments →
      Generated (runner.execute (MachineCoroutine.body limit) arguments).2
  | setPayload {runner : Runner MachineCoroutine Value} (payload : Option Value) :
      Generated runner → Generated (runner.setPayload payload)
  | reset {runner : Runner MachineCoroutine Value} : Generated runner → Generated runner.reset

end Runner

namespace Machine

theorem advance_add (classes : ClassTable) (first second : Nat) (progress : Progress)
    (world : World) :
    advance classes (first + second) progress world = advance classes second
      (advance classes first progress world).1 (advance classes first progress world).2 := by
  induction first generalizing progress world with
  | zero => cases progress <;> simp [advance]
  | succ first ih =>
      cases progress with
      | running activations =>
          rw [Nat.succ_add]
          exact ih _ _
      | done outcome => cases second <;> simp [advance]

end Machine

namespace Vm

variable {vm : Vm} {prepared : PreparedMethod} {arguments : List Value}
  {context : Option (Context Value)}

/-- All frames that are there after a run are accepted, if those before it are and the run has frames
pushed by generated code only. -/
theorem advance_valid (arises : vm.Arises) (held : vm.classes.Holds prepared) (limit : Nat)
    (valid : ∀ frame ∈ (vm.world context).frames,
      frame.isValid vm.classes.declaresField = .ok true)
    (generated : Machine.PushesGenerated vm.classes limit (Machine.enter prepared arguments [])
      (vm.world context))
    (bounded : (Machine.advance vm.classes limit (Machine.enter prepared arguments [])
      (vm.world context)).2.heap.size ≤ 2 ^ 32) :
    ∀ frame ∈ (Machine.advance vm.classes limit (Machine.enter prepared arguments [])
      (vm.world context)).2.frames, frame.isValid vm.classes.declaresField = .ok true := by
  -- On the number of steps: the last one adds no frame, or a frame that generated code pushes.
  induction limit with
  | zero => cases Machine.enter prepared arguments [] <;> exact valid
  | succ limit ih =>
      rw [Machine.advance_add] at bounded ⊢
      rcases state : Machine.advance vm.classes limit (Machine.enter prepared arguments [])
        (vm.world context) with ⟨progress, world⟩
      rw [state] at bounded ih
      dsimp only at bounded ih ⊢
      have within : world.heap.size ≤ 2 ^ 32 :=
        Nat.le_trans (Machine.advance_follows vm.classes 1 progress world).grown bounded
      have before := ih (fun steps below => generated steps (Nat.lt_succ_of_lt below)) within
      match progress with
      | .done outcome => exact before
      | .running [] => exact before
      | .running (activation :: callers) =>
          have stepped : (Machine.advance vm.classes 1 (.running (activation :: callers)) world).2 =
              (Machine.step vm.classes (activation :: callers) world).2 := by
            show (Machine.advance vm.classes 0 _ _).2 = _
            cases (Machine.step vm.classes (activation :: callers) world).1 <;> rfl
          rw [stepped]
          intro frame member
          rcases generated limit (Nat.lt_succ_self _) activation callers world state with
            ⟨file, hierarchy, settings, report, instruments, hands⟩ | fewer
          · rcases arises.handsOver held state within instruments hands with
              same | ⟨current, pushed, runs, changed, accepted⟩
            · refine before frame ?_
              rwa [World.frames, same] at member
            · rw [World.frames, changed] at member
              simp only [Option.toList_some, List.flatMap_cons, List.flatMap_nil,
                List.append_nil] at member
              rcases Context.mem_push member with rfl | old
              · exact accepted
              · refine before frame ?_
                simpa [World.frames, runs] using old
          · exact before frame (fewer member)

/-- An invocation in whose run only generated code pushes saved frames leaves none but accepted ones. -/
theorem invokeStatic_valid (arises : vm.Arises) (limit : Nat) (method : MethodRef)
    (arguments : List Value) {current : Context Value}
    (valid : ∀ frame ∈ current.chain.frames, frame.isValid vm.classes.declaresField = .ok true)
    (generated : ∀ prepared, vm.staticMethod method = .ok prepared →
      Machine.PushesGenerated vm.classes limit (Machine.enter prepared arguments [])
        (vm.world (some current)))
    (bounded : (vm.invokeStatic limit method arguments (some current)).2.1.state.heap.size ≤ 2 ^ 32) :
    ∀ frame ∈ ((vm.invokeStatic limit method arguments (some current)).2.2.getD current).chain.frames,
      frame.isValid vm.classes.declaresField = .ok true := by
  cases found : vm.staticMethod method with
  | error cause =>
      rw [invokeStatic_refused found]
      exact valid
  | ok prepared =>
      obtain ⟨state, _, left⟩ := @invokeStatic_leaves vm method arguments (some current) _ found limit
      rw [state, Machine.run_world] at bounded
      rw [left, Machine.run_world]
      have before : ∀ frame ∈ (vm.world (some current)).frames,
          frame.isValid vm.classes.declaresField = .ok true := by
        simpa [World.frames, world] using valid
      have after := advance_valid arises (staticMethod_held found) limit before
        (generated prepared found) bounded
      unfold World.frames at after
      cases attached : (Machine.advance vm.classes limit (Machine.enter prepared arguments [])
          (vm.world (some current))).2.context with
      | none => exact valid
      | some last =>
          rw [attached] at after
          simpa using after

end Vm

namespace Runner

variable {runner : Runner MachineCoroutine Value}

theorem Generated.valid (generated : runner.Generated) :
    runner.state.vm.Arises ∧ (runner.state.vm.state.heap.size ≤ 2 ^ 32 →
      ∀ frame ∈ runner.context.chain.frames,
        frame.isValid runner.state.vm.classes.declaresField = .ok true) := by
  induction generated with
  | fresh className method arises => exact ⟨arises, fun _ _ member => by cases member⟩
  | setPayload payload _ ih => exact ih
  | reset _ ih => exact ⟨ih.1, fun _ _ member => by cases member⟩
  | @execute runner limit arguments _ pushes ih =>
      obtain ⟨arises, valid⟩ := ih
      refine ⟨arises.execute limit trivial, fun bounded => ?_⟩
      cases ended : runner.terminated with
      | true =>
          rw [execute_terminated ended] at bounded ⊢
          exact valid bounded
      | false =>
          have within := Nat.le_trans (Vm.execute_follows runner limit arguments).grown bounded
          obtain ⟨same, fewer⟩ := @execute_leaves runner limit arguments ended
          rw [Vm.execute_classes]
          rw [same] at bounded
          have old : ∀ frame ∈ (runner.context.pushArguments arguments).chain.frames,
              frame.isValid runner.state.vm.classes.declaresField = .ok true := valid within
          intro frame member
          exact Vm.invokeStatic_valid arises limit _ _ old pushes bounded frame (fewer member)

end Runner

/-! ### A check of one run -/

/-- The instruction ends code that hands over a saved frame of the point. -/
def MethodPlan.handsOver (plan : MethodPlan) (point : Point) (activation : Activation) : Bool :=
  9 ≤ activation.index &&
    (activation.method.code.toList.drop (activation.index - 9)).take 10 = plan.pushSavedFrame point

theorem MethodPlan.has_of_handsOver {plan : MethodPlan} {point : Point} {activation : Activation}
    (hands : plan.handsOver point activation = true) :
    activation.method.Has (activation.index - 9) (plan.pushSavedFrame point) ∧
      activation.index = activation.index - 9 + 9 := by
  unfold handsOver at hands
  simp only [Bool.and_eq_true, decide_eq_true_eq] at hands
  obtain ⟨late, same⟩ := hands
  refine ⟨fun place insn found => ?_, (Nat.sub_add_cancel late).symm⟩
  have early : place < 10 := (List.getElem?_eq_some_iff.mp found).1
  rw [← same, List.getElem?_take_of_lt early, List.getElem?_drop, Array.getElem?_toList] at found
  exact found

/-- Every instruction in the first steps of a run passes the check or leaves no frames but those that
were there. -/
def Machine.keepsFrames (allowed : Activation → Bool) (classes : ClassTable) :
    Nat → Progress → World → Bool
  | limit + 1, .running (activation :: callers), world =>
      let next := step classes (activation :: callers) world
      (allowed activation || next.2.frames.all world.frames.contains) &&
        keepsFrames allowed classes limit next.1 next.2
  | _, _, _ => true

theorem Machine.pushesGenerated_of_keepsFrames {allowed : Activation → Bool} {classes : ClassTable}
    (generated : ∀ activation, allowed activation = true → ∃ file hierarchy settings report,
      classes.Instruments file hierarchy settings report ∧ file.HandsOver hierarchy settings activation)
    {limit : Nat} {progress : Progress} {world : World}
    (keeps : keepsFrames allowed classes limit progress world = true) :
    PushesGenerated classes limit progress world := by
  intro steps below activation callers later ran
  induction steps generalizing limit progress world with
  | zero =>
      obtain ⟨limit, rfl⟩ : ∃ less, limit = less + 1 := ⟨limit - 1, by omega⟩
      have here : (progress, world) = (.running (activation :: callers), later) := by
        rw [← ran]
        cases progress <;> rfl
      cases here
      rw [keepsFrames, Bool.and_eq_true, Bool.or_eq_true] at keeps
      rcases keeps.1 with passes | kept
      · exact Or.inl (generated activation passes)
      · exact Or.inr fun frame member => by simpa using List.all_eq_true.mp kept frame member
  | succ steps ih =>
      obtain ⟨limit, rfl⟩ : ∃ less, limit = less + 1 := ⟨limit - 1, by omega⟩
      match progress with
      | .done outcome => cases ran
      | .running [] =>
          have stays : ∀ steps, advance classes steps (.done (.returned none)) world =
              (.done (.returned none), world) := by
            rintro (_ | _) <;> rfl
          have ended : advance classes (steps + 1) (.running []) world =
              (.done (.returned none), world) := stays steps
          cases ended.symm.trans ran
      | .running (innermost :: others) =>
          rw [keepsFrames, Bool.and_eq_true] at keeps
          exact ih keeps.2 (Nat.lt_of_succ_lt_succ below) ran

/-- The check of the next run of a coroutine. -/
def Runner.keepsFrames (allowed : Activation → Bool) (limit : Nat)
    (runner : Runner MachineCoroutine Value) (arguments : List Value) : Bool :=
  match runner.state.vm.staticMethod runner.state.entry with
  | .ok prepared => Machine.keepsFrames allowed runner.state.vm.classes limit
      (Machine.enter prepared [.context] [])
      (runner.state.vm.world (some (runner.context.pushArguments arguments)))
  | .error _ => true

/-- If the check lets pass only code generated for points of a class that is instrumented, only
generated code pushes saved frames. -/
theorem Runner.pushesGenerated_of_keepsFrames {runner : Runner MachineCoroutine Value} {limit : Nat}
    {arguments : List Value} {file : ClassFile} {hierarchy : Hierarchy}
    {settings : InstrumentSettings} {report : ClassReport} {plan : MethodPlan}
    (instruments : runner.state.vm.classes.Instruments file hierarchy settings report)
    (plans : file.HasPlan hierarchy settings plan)
    (keeps : runner.keepsFrames (fun activation => plan.points.any fun point =>
      plan.handsOver point activation) limit arguments = true) :
    runner.PushesGenerated limit arguments := by
  intro prepared found
  unfold keepsFrames at keeps
  rw [found] at keeps
  refine Machine.pushesGenerated_of_keepsFrames (fun activation passes => ?_) keeps
  obtain ⟨point, member, hands⟩ := List.any_eq_true.mp passes
  obtain ⟨has, last⟩ := MethodPlan.has_of_handsOver hands
  exact ⟨file, hierarchy, settings, report, instruments, plan, point, _, plans, member, has, last⟩

/-- Saved frames that have become stale are told apart from those that have not. Of a class that is
loaded as it was instrumented exactly the points in its report are found, and no two points share a
field. Every point has code in the class that hands over a saved frame, and in all runs, as long as
references can number the objects, what that code pushes is accepted. So is a whole coroutine into
which only generated code has pushed saved frames, whatever classes that code belongs to. -/
theorem Vm.stale_frames_detected {vm : Vm} (arises : vm.Arises) {file : ClassFile}
    {hierarchy : Hierarchy} {settings : InstrumentSettings} {report : ClassReport}
    (instruments : vm.classes.Instruments file hierarchy settings report) :
    (∀ methodId point : Int32, 0 ≤ point →
      SavedFrame.pointExists vm.classes.declaresField file.name methodId point =
        .ok (decide (∃ method ∈ report.methods, method.methodId = methodId ∧
          point.toInt.toNat < method.pointCount))) ∧
    (∀ methodId point otherId other : Int32,
      SavedFrame.pointFieldName methodId point = SavedFrame.pointFieldName otherId other →
        methodId = otherId ∧ point = other) ∧
    (∀ plan, file.HasPlan hierarchy settings plan → ∀ point ∈ plan.points, ∃ prepared start,
      vm.classes.Holds prepared ∧ prepared.Has start (plan.pushSavedFrame point)) ∧
    (∀ method prepared arguments context steps activation callers world,
      vm.staticMethod method = .ok prepared →
      Machine.advance vm.classes steps (Machine.enter prepared arguments []) (vm.world context) =
        (.running (activation :: callers), world) →
      world.heap.size ≤ 2 ^ 32 → file.HandsOver hierarchy settings activation →
      let later := (Machine.step vm.classes (activation :: callers) world).2
      later.context = world.context ∨ ∃ current frame, world.context = some current ∧
        later.context = some (current.push frame) ∧
        frame.isValid vm.classes.declaresField = .ok true) ∧
    ∀ runner : Runner MachineCoroutine Value, runner.Generated →
      runner.state.vm.state.heap.size ≤ 2 ^ 32 →
        runner.context.isCompatible runner.state.vm.classes.declaresField = .ok true := by
  refine ⟨fun _ _ => instruments.pointExists, fun _ _ _ _ => SavedFrame.pointFieldName_injective,
    fun _ plans _ => instruments.has arises.accepted plans, ?_, ?_⟩
  · intro method prepared arguments context steps activation callers world found ran bounded hands
    exact arises.handsOver (Vm.staticMethod_held found) ran bounded instruments hands
  · intro runner generated bounded
    exact Context.isCompatible_of_all (generated.valid.2 bounded)

/-! ### A suspended coroutine -/

/-- The class as it is instrumented, with the report of that. -/
def ClassFile.instrumented (file : ClassFile) : ClassFile × ClassReport :=
  (file.instrument ClassTable.hostHierarchy .standard).toOption.getD default

/-- A coroutine that runs in the class, instrumented and loaded alone. -/
def ClassFile.coroutine (file : ClassFile) (method : String) : Runner MachineCoroutine Value :=
  .ofParts ⟨(Vm.empty.loadClasses [file.instrumented.1]).2, file.name, method⟩ .empty

theorem ClassFile.coroutine_arises (file : ClassFile) (method : String) :
    (file.coroutine method).state.vm.Arises := .load [file.instrumented.1] .empty

theorem ClassFile.coroutine_generated (file : ClassFile) (method : String) :
    (file.coroutine method).Generated := .fresh file.name method (file.coroutine_arises method)

theorem ClassFile.coroutine_instruments {file : ClassFile} (method : String)
    (unmarked : file.Unmarked)
    (done : (file.instrument ClassTable.hostHierarchy .standard).toOption.isSome = true)
    (listed : ((ClassTable.empty.loadAll [file.instrumented.1]).2.find? file.name).isSome = true) :
    (file.coroutine method).state.vm.classes.Instruments file ClassTable.hostHierarchy .standard
      file.instrumented.2 := by
  obtain ⟨pair, done⟩ := Option.isSome_iff_exists.mp done
  have same : file.instrumented = pair := by rw [instrumented, done, Option.getD_some]
  have alone : (file.coroutine method).state.vm.classes =
      (ClassTable.empty.loadAll [file.instrumented.1]).2 :=
    Vm.loadClasses_classes Vm.empty [file.instrumented.1]
  rw [alone]
  refine .alone unmarked ?_ rfl listed
  rw [same]
  exact Outcome.toOption_eq_some.mp done

/-- A method that suspends its coroutine. -/
def suspendingMethod : Method :=
  ⟨Access.isStatic, "run", "(Lresumable/SuspendableContext;)V", 1, 1,
    [.load .ref 0, .invoke .virtual Protocol.suspend, .return none], []⟩

def suspending : ClassFile := { ClassFile.empty "demo/C" with methods := [suspendingMethod] }

def suspendingPlan : MethodPlan × LabelSupply :=
  (suspendingMethod.plan? ClassTable.hostHierarchy .standard "demo/C").toOption.join.getD default

set_option maxRecDepth 10000 in
/-- What the first run of the coroutine comes to, at once: all of it needs the class instrumented. -/
theorem suspending_checked :
    (suspending.instrument ClassTable.hostHierarchy .standard).toOption.isSome = true ∧
    (suspendingMethod.plan? ClassTable.hostHierarchy .standard "demo/C").toOption.join.isSome = true ∧
    ((ClassTable.empty.loadAll [suspending.instrumented.1]).2.find? "demo/C").isSome = true ∧
    suspending.instrumented.2.methods.map MethodReport.pointCount = [1] ∧
    (suspending.coroutine "run").keepsFrames (fun activation => suspendingPlan.1.points.any
      fun point => suspendingPlan.1.handsOver point activation) 100 [] = true ∧
    ((suspending.coroutine "run").execute
      (MachineCoroutine.body 100) []).2.context.chain.frames.length = 1 ∧
    ((suspending.coroutine "run").execute
      (MachineCoroutine.body 100) []).2.state.vm.state.heap.size ≤ 2 ^ 32 := by
  decide +kernel

theorem suspending_hasPlan :
    suspending.HasPlan ClassTable.hostHierarchy .standard suspendingPlan.1 where
  proper := rfl
  planned := by
    obtain ⟨_, planned, _⟩ := suspending_checked
    obtain ⟨pair, done⟩ := Option.isSome_iff_exists.mp planned
    have same : suspendingPlan = pair := by rw [suspendingPlan, done, Option.getD_some]
    rw [same]
    exact ⟨suspendingMethod, List.mem_cons_self, rfl, pair.2,
      Outcome.toOption_eq_some.mp (Option.join_eq_some_iff.mp done)⟩

/-- The one point of the method is found and no other, and the suspended coroutine, with its one saved
frame, is accepted. -/
theorem Vm.stale_frames_detected_suspended :
    (suspending.coroutine "run").state.vm.classes.Instruments suspending ClassTable.hostHierarchy
      .standard suspending.instrumented.2 ∧
    (∀ method ∈ suspending.instrumented.2.methods, SavedFrame.pointExists
      (suspending.coroutine "run").state.vm.classes.declaresField "demo/C" method.methodId 0 =
        .ok true) ∧
    (∀ methodId, SavedFrame.pointExists
      (suspending.coroutine "run").state.vm.classes.declaresField "demo/C" methodId 1 = .ok false) ∧
    ((suspending.coroutine "run").execute
      (MachineCoroutine.body 100) []).2.context.chain.frames.length = 1 ∧
    ((suspending.coroutine "run").execute (MachineCoroutine.body 100) []).2.context.isCompatible
      ((suspending.coroutine "run").execute
        (MachineCoroutine.body 100) []).2.state.vm.classes.declaresField = .ok true := by
  obtain ⟨done, _, listed, counts, keeps, saved, bounded⟩ := suspending_checked
  have instruments := @ClassFile.coroutine_instruments suspending "run" nofun done listed
  have generated := (suspending.coroutine_generated "run").execute 100 []
    (Runner.pushesGenerated_of_keepsFrames instruments suspending_hasPlan keeps)
  obtain ⟨found, _, _, _, accepted⟩ :=
    Vm.stale_frames_detected (suspending.coroutine_arises "run") instruments
  have one : ∀ method ∈ suspending.instrumented.2.methods, method.pointCount = 1 := by
    intro method member
    obtain ⟨only, listed, single⟩ := List.map_eq_singleton_iff.mp counts
    rw [listed] at member
    rwa [List.mem_singleton.mp member]
  refine ⟨instruments, ?_, ?_, saved, accepted _ generated bounded⟩
  · intro method member
    refine (found method.methodId 0 (by decide)).trans (congrArg Except.ok (decide_eq_true ?_))
    exact ⟨method, member, rfl, by rw [one method member]; decide⟩
  · intro methodId
    refine (found methodId 1 (by decide)).trans (congrArg Except.ok (decide_eq_false ?_))
    rintro ⟨method, member, _, below⟩
    rw [one method member] at below
    exact absurd below (by decide)

/-! ### A frame of the program's own -/

/-- A method that makes a saved frame of no point, pushes it and suspends its coroutine. -/
def forgingMethod : Method :=
  ⟨Access.isStatic, "run", "(Lresumable/SuspendableContext;)V", 8, 1,
    [.load .ref 0, .new Protocol.savedFrameClass, .dup, .textConst "demo/C", .intConst 7, .intConst 3,
      .constNull, .constNull, callSpecial Protocol.savedFrameInit, callVirtual Protocol.pushNew,
      .load .ref 0, .intConst 1, callVirtual Protocol.setMode, .return none], []⟩

def forging : ClassFile := { ClassFile.empty "demo/C" with methods := [forgingMethod] }

set_option maxRecDepth 10000 in
/-- A coroutine suspended with a saved frame that the program has made itself is refused under the
classes it was suspended with. -/
theorem Vm.stale_frames_forged :
    (∃ report, (forging.coroutine "run").state.vm.classes.Instruments forging
      ClassTable.hostHierarchy .standard report) ∧
    ((forging.coroutine "run").execute (MachineCoroutine.body 100) []).1 = .ok true ∧
    ((forging.coroutine "run").execute (MachineCoroutine.body 100) []).2.context.isCompatible
      ((forging.coroutine "run").execute
        (MachineCoroutine.body 100) []).2.state.vm.classes.declaresField = .ok false := by
  have checked : (forging.instrument ClassTable.hostHierarchy .standard).toOption.isSome = true ∧
      ((ClassTable.empty.loadAll [forging.instrumented.1]).2.find? "demo/C").isSome = true ∧
      ((forging.coroutine "run").execute (MachineCoroutine.body 100) []).1.toOption = some true ∧
      (((forging.coroutine "run").execute (MachineCoroutine.body 100) []).2.context.isCompatible
        ((forging.coroutine "run").execute (MachineCoroutine.body 100)
          []).2.state.vm.classes.declaresField).toOption = some false := by
    decide +kernel
  obtain ⟨done, listed, suspends, refused⟩ := checked
  refine ⟨⟨forging.instrumented.2, ClassFile.coroutine_instruments "run" nofun done listed⟩, ?_, ?_⟩
  · exact Outcome.toOption_eq_some.mp suspends
  · exact Outcome.toOption_eq_some.mp refused

end StackCoroutine
