import StackCoroutine.Proofs.Instrument.Calm
import StackCoroutine.Proofs.Instrument.Splicing
import StackCoroutine.Proofs.Object.Runs
import StackCoroutine.Proofs.Point.Pushing

/-!
Saved frames that generated code pushes in whole runs. Wherever in a run an invocation stands within
code that hands over a saved frame, its operands are those that the code has put there: nothing jumps
into that code, and nothing but the constructor is called from within it.
-/

namespace StackCoroutine

/-- Control is passed on to labels, but for the instruction that comes next. -/
theorem PreparedMethod.Checked.lands {method : PreparedMethod} (checked : method.Checked)
    {label : Label} {place : Nat} (resolved : Analysis.resolve method.labels label = .ok place) :
    method.code[place]? = some (.label label) := by
  have made := checked.made
  simp only [prepare, Outcome.bind_eq_ok, Outcome.mapError_eq_ok, Outcome.pure_eq_ok] at made
  obtain ⟨labels, collected, _, _, _, _, same⟩ := made
  rw [← same] at resolved ⊢
  simpa using (Analysis.labelTable_resolve collected label place).mp resolved

theorem PreparedMethod.Checked.handles {method : PreparedMethod} (checked : method.Checked)
    {range : CatchRange} (member : range ∈ method.handlers) :
    ∃ label, method.code[range.target]? = some (.label label) := by
  obtain ⟨same, delimits, _⟩ := prepare_ranges checked.made
  obtain ⟨block, _, delimited⟩ := delimits range member
  refine ⟨block.handler, ?_⟩
  rw [← Array.getElem?_toList, same]
  exact delimited.target

namespace Activation

variable {classes : ClassTable} {heap later : Heap} {activation caller : Activation}
  {callee : PreparedMethod}

/-- Within code that hands over a saved frame the operands are as that code has left them. -/
def Pushes (heap : Heap) (activation : Activation) : Prop :=
  ∀ (start : Nat) (plan : MethodPlan) (point : Point) (place : Nat),
    activation.method.Has start (plan.pushSavedFrame point) →
    activation.index = start + place → place < 10 →
    plan.Pushing point heap place activation.stack

/-- The call in progress is none within such code, or it is that of a constructor that takes the
place of the machine's. -/
def Constructing (classes : ClassTable) (heap : Heap) (callee : PreparedMethod)
    (caller : Activation) : Prop :=
  ∀ (start : Nat) (plan : MethodPlan) (point : Point) (place : Nat),
    caller.method.Has start (plan.pushSavedFrame point) → caller.index = start + place → place < 9 →
    place = 8 ∧ ¬classes.Constructs ∧
      callee.method.descriptor = Protocol.savedFrameInit.descriptor ∧
      ∃ object rest, caller.stack = .ref object :: rest ∧ heap.Blank object

theorem pushes_at_start (first : activation.index = 0) : activation.Pushes heap := by
  intro start plan point place _ index _
  have beginning : place = 0 := by omega
  subst beginning
  exact .beginning

/-- There are no labels in such code. -/
theorem pushes_at_label {label : Label}
    (there : activation.method.code[activation.index]? = some (.label label)) :
    activation.Pushes heap := by
  intro start plan point place has index few
  have piece := has.inside (show place < 10 from few) (index ▸ there)
  have calm := plan.pushSavedFrame_calm point _ (List.mem_of_getElem? piece)
  cases calm

theorem Constructing.follow (constructing : caller.Constructing classes heap callee)
    (follows : heap.Follows classes.Constructs later) :
    caller.Constructing classes later callee := by
  intro start plan point place has index early
  obtain ⟨last, missing, same, object, rest, top, blank⟩ :=
    constructing start plan point place has index early
  exact ⟨last, missing, same, object, rest, top, blank.follow (follows.weaken missing)⟩

end Activation

namespace Machine

variable {classes : ClassTable} {heap later : Heap} {callee : PreparedMethod}
  {callers : List Activation}

/-- What each caller has left, until the one it has called returns. -/
def Constructed (classes : ClassTable) (heap : Heap) (callee : PreparedMethod) :
    List Activation → Prop
  | [] => True
  | caller :: callers => caller.method.Checked ∧ caller.Constructing classes heap callee ∧
      Constructed classes heap caller.method callers

/-- No invocation in progress has other operands within code that hands over a saved frame than that
code has put there. -/
def Progress.Pushes (classes : ClassTable) (heap : Heap) : Progress → Prop
  | .running (activation :: callers) => activation.method.Checked ∧ activation.Pushes heap ∧
      Constructed classes heap activation.method callers
  | _ => True

theorem Constructed.follow (constructed : Constructed classes heap callee callers)
    (follows : heap.Follows classes.Constructs later) :
    Constructed classes later callee callers := by
  induction callers generalizing callee with
  | nil => exact trivial
  | cons caller rest ih =>
      obtain ⟨checked, constructing, others⟩ := constructed
      exact ⟨checked, constructing.follow follows, ih others⟩

theorem enter_pushes (checked : callee.Checked) (arguments : List Value)
    (constructed : Constructed classes heap callee callers) :
    (enter callee arguments callers).Pushes classes heap := by
  obtain ⟨certificate⟩ := checked.certificate
  have entered := activation_enter certificate arguments
  unfold enter
  split
  · exact trivial
  split
  · rename_i activation found
    rw [found] at entered
    obtain ⟨rfl, first, _⟩ := entered
    exact ⟨checked, Activation.pushes_at_start first, constructed⟩
  · exact trivial

/-- A constructor gives no result, so its caller goes on with the object it has left on top, which is
no saved frame. -/
theorem leave_pushes {type : MethodType} {value : Option Value}
    (typed : callee.method.type = .ok type) (given : value.isSome = type.result.kind.isSome)
    (constructed : Constructed classes heap callee callers) :
    (leave value callers).Pushes classes heap := by
  cases callers with
  | nil => exact trivial
  | cons caller rest =>
      obtain ⟨checked, constructing, others⟩ := constructed
      refine ⟨checked, ?_, others⟩
      intro start plan point place has index few
      cases place with
      | zero => exact .beginning
      | succ before =>
          have early : before < 9 := by omega
          have called : caller.index = start + before := Nat.succ.inj index
          obtain ⟨rfl, _, same, object, low, top, held, found, other⟩ :=
            constructing start plan point before has called early
          have void : value = none := by
            obtain ⟨own, parsed, _, nothing⟩ := MethodPlan.savedFrameInit_type
            have equal : type = own := by
              refine Except.ok.inj (typed.symm.trans (Eq.trans ?_ parsed))
              exact congrArg MethodType.parse same
            subst equal
            rw [nothing] at given
            simpa using given
          subst void
          show plan.Pushing point heap 9 caller.stack
          rw [top]
          refine .made fun frame position made => ?_
          cases found.symm.trans made
          exact absurd rfl (other frame position)

/-- A handler begins with a label. -/
theorem unwind_pushes {world : Heap} {exception : ObjectRef} {activation : Activation}
    (checked : activation.method.Checked)
    (constructed : Constructed classes heap activation.method callers) :
    (unwind classes world exception (activation :: callers)).Pushes classes heap := by
  have handled : ∀ {activation : Activation} {target : Nat} {className : String},
      activation.method.Checked → handler? classes activation className = some target →
      Activation.Pushes heap { activation with index := target, stack := [.ref exception] } := by
    intro activation target className checked found
    obtain ⟨range, chosen, rfl⟩ := Option.map_eq_some_iff.mp found
    obtain ⟨label, there⟩ := checked.handles (List.mem_of_find?_eq_some chosen)
    exact Activation.pushes_at_label there
  -- Outward over the callers, until one of them handles the exception.
  induction callers generalizing activation with
  | nil =>
      unfold unwind
      split
      · exact trivial
      split
      · rename_i target found
        exact ⟨checked, handled checked found, constructed⟩
      · exact trivial
  | cons caller rest ih =>
      unfold unwind
      split
      · exact trivial
      split
      · rename_i target found
        exact ⟨checked, handled checked found, constructed⟩
      · exact ih constructed.1 constructed.2.2

/-- A step keeps the operands within code that hands over a saved frame as that code has put them. -/
theorem step_pushes (accepted : classes.Checked) {activations : List Activation} {world : World}
    (alive : (Progress.running activations).Alive)
    (pushes : (Progress.running activations).Pushes classes world.heap)
    (reads : ∀ entry ∈ world.heap.interned, world.heap.Reads entry)
    (bounded : (step classes activations world).2.heap.size ≤ 2 ^ 32) :
    (step classes activations world).1.Pushes classes (step classes activations world).2.heap := by
  have follows := step_follows classes activations world
  cases activations with
  | nil => exact trivial
  | cons activation callers =>
      obtain ⟨checked, operands, constructed⟩ := pushes
      have constructed := constructed.follow follows
      unfold step at bounded constructed ⊢
      cases there : activation.method.code[activation.index]? with
      | none =>
          simp only [there]
          exact trivial
      | some insn =>
          simp only [there] at bounded constructed ⊢
          rcases outcome : ((Execution.execute classes insn).run activation).run world with
            ⟨(cause | exception) | ⟨flow, left⟩, after⟩
          · exact trivial
          · simp only [outcome] at constructed
            exact unwind_pushes checked constructed
          obtain ⟨height, type, typed, same, goes⟩ := alive.1.follows accepted.certified there outcome
          have after_heap : after.heap.size ≤ 2 ^ 32 ∧
              Constructed classes after.heap activation.method callers := by
            rw [outcome] at bounded constructed
            cases flow <;> exact ⟨bounded, constructed⟩
          obtain ⟨bounded, constructed⟩ := after_heap
          obtain ⟨method, index, locals, stack⟩ := left
          obtain ⟨rfl, rfl, _⟩ : method = activation.method ∧ index = activation.index ∧
              locals.length = activation.locals.length := by
            simpa [Execution.siteOf] using same
          -- Within such code the instruction goes on to the next one, or it calls a constructor.
          have within : ∀ {start place : Nat} {plan : MethodPlan} {point : Point},
              activation.method.Has start (plan.pushSavedFrame point) →
              activation.index = start + place → place < 9 → _ :=
            fun {start place plan point} has here early =>
              (operands start plan point place has here (Nat.lt_succ_of_lt early)).step early
                (has.inside (Nat.lt_succ_of_lt early) (here ▸ there)) bounded reads outcome
          cases flow with
          | next =>
              refine ⟨checked, ?_, constructed⟩
              intro start plan point place has index few
              cases place with
              | zero => exact .beginning
              | succ before =>
                  rcases within has (Nat.succ.inj index) (Nat.lt_of_succ_lt_succ few) with
                    ⟨_, pushing⟩ | ⟨_, _, _, _, _, _, _, _, called, _⟩
                  · exact pushing
                  · cases called
          | jump place =>
              obtain ⟨_, label, _, resolved⟩ := goes
              exact ⟨checked, Activation.pushes_at_label (checked.lands resolved), constructed⟩
          | «return» value => exact leave_pushes typed goes constructed
          | call callee arguments =>
              obtain ⟨_, held, _⟩ := goes
              refine enter_pushes (accepted.methods callee held) arguments ⟨checked, ?_, constructed⟩
              intro start plan point place has index early
              rcases within has index early with ⟨next, _⟩ |
                ⟨last, missing, object, rest, top, blank, target, values, called, same⟩
              · cases next
              · cases called
                exact ⟨last, missing, same, object, rest, top, blank⟩

theorem advance_pushes (accepted : classes.Checked) (steps : Nat) {progress : Progress}
    {world : World} (alive : progress.Alive) (pushes : progress.Pushes classes world.heap)
    (reads : ∀ entry ∈ world.heap.interned, world.heap.Reads entry)
    (bounded : (advance classes steps progress world).2.heap.size ≤ 2 ^ 32) :
    (advance classes steps progress world).1.Pushes classes
      (advance classes steps progress world).2.heap := by
  -- From the front, as the run goes; the heap only grows, so its bound in the end holds before.
  induction steps generalizing progress world with
  | zero => cases progress <;> exact pushes
  | succ steps ih =>
      cases progress with
      | done outcome => exact trivial
      | running activations =>
          have later := advance_follows classes steps (step classes activations world).1
            (step classes activations world).2
          have within := Nat.le_trans later.grown bounded
          exact ih (step_alive accepted.certified alive world)
            (step_pushes accepted alive pushes reads within)
            ((step_follows classes activations world).reads reads) bounded

end Machine

namespace Vm

variable {vm : Vm} {given : Heap → List Value → Option (Context Value) → Prop}

theorem invokeStatic_classes (vm : Vm) (limit : Nat) (method : MethodRef) (arguments : List Value)
    (context : Option (Context Value)) :
    (vm.invokeStatic limit method arguments context).2.1.classes = vm.classes := by
  cases found : vm.staticMethod method with
  | error cause => rw [invokeStatic_refused found]
  | ok prepared => exact (invokeStatic_leaves found limit).2.1

theorem execute_classes (runner : Runner MachineCoroutine Value) (limit : Nat)
    (arguments : List Value) :
    (runner.execute (MachineCoroutine.body limit) arguments).2.state.vm.classes =
      runner.state.vm.classes := by
  cases ended : runner.terminated with
  | true => rw [Runner.execute_terminated ended]
  | false =>
      rw [(Runner.execute_leaves ended).1]
      exact invokeStatic_classes _ _ _ _ _

/-- The classes of every machine have been accepted. -/
theorem Reached.accepted (reached : vm.Reached given) : vm.classes.Accepted := by
  induction reached with
  | empty => exact .empty
  | load files _ ih => exact loadClasses_accepted ih files
  | text content _ ih => exact ih
  | invoke limit method _ _ ih =>
      rw [invokeStatic_classes]
      exact ih
  | execute limit _ _ ih =>
      rw [execute_classes]
      exact ih

/-- Where in a run the last instruction of code that hands over a saved frame is executed, the context
is left as it is or a saved frame of the point is pushed. -/
theorem Reached.pushes (reached : vm.Reached given) {prepared : PreparedMethod}
    (held : vm.classes.Holds prepared) (arguments : List Value) (context : Option (Context Value))
    (steps : Nat) {activation : Activation} {callers : List Activation} {world : World}
    (ran : Machine.advance vm.classes steps (Machine.enter prepared arguments []) (vm.world context) =
      (.running (activation :: callers), world)) (bounded : world.heap.size ≤ 2 ^ 32)
    {start : Nat} {plan : MethodPlan} {point : Point}
    (has : activation.method.Has start (plan.pushSavedFrame point))
    (last : activation.index = start + 9) :
    let later := (Machine.step vm.classes (activation :: callers) world).2
    later.context = world.context ∨ ∃ current frame, world.context = some current ∧
      later.context = some (current.push frame) ∧ frame.IsOf plan point := by
  have accepted := reached.accepted.checked
  have certified := reached.accepted.certified
  have alive : (Machine.enter prepared arguments []).Alive :=
    Machine.enter_alive (certified.methods prepared held) arguments trivial
  have begun : (Machine.enter prepared arguments []).Pushes vm.classes (vm.world context).heap :=
    Machine.enter_pushes (accepted.methods prepared held) arguments trivial
  have pushes := Machine.advance_pushes accepted steps alive begun reached.reads
    (by rwa [ran])
  rw [ran] at pushes
  have pushing := pushes.2.1 start plan point 9 has last (by decide)
  exact pushing.push (last ▸ has 9 _ rfl) vm.classes callers

end Vm

end StackCoroutine
