import StackCoroutine.Machine.Vm
import StackCoroutine.Proofs.Outcome

/-!
Histories of machines. Classes are loaded into a machine, static methods are invoked and coroutines
are run, and the machine goes on with what these leave, whatever they end in. An invocation leaves
the world of its run; running a coroutine is one invocation of its entry point.
-/

namespace StackCoroutine

namespace Vm

variable {vm : Vm} {method : MethodRef} {arguments : List Value}
  {context : Option (Context Value)}

/-- What an invocation leaves if there is no such method. -/
theorem invokeStatic_refused {cause : MachineError} (refused : vm.staticMethod method = .error cause)
    (limit : Nat) :
    vm.invokeStatic limit method arguments context = (.error cause, vm, context) := by
  simp [invokeStatic, refused]

/-- An invocation leaves the world of its run. -/
theorem invokeStatic_leaves {prepared : PreparedMethod} (found : vm.staticMethod method = .ok prepared)
    (limit : Nat) :
    let world := (Machine.run vm.classes limit (Machine.enter prepared arguments [])
      (vm.world context)).2
    let left := (vm.invokeStatic limit method arguments context).2
    left.1.state = ⟨world.heap, world.statics⟩ ∧ left.1.classes = vm.classes ∧
      left.2 = world.context := by
  unfold invokeStatic
  simp only [found]
  rcases Machine.run vm.classes limit (Machine.enter prepared arguments []) (vm.world context) with
    ⟨value | exception | cause, world⟩ <;> exact ⟨rfl, rfl, rfl⟩

/-- Machines that come of loading classes into an empty one, invoking static methods and running
coroutines, whatever these end in, with arguments and contexts as they may be given for the heap. -/
inductive Reached (given : Heap → List Value → Option (Context Value) → Prop) : Vm → Prop where
  | empty : Reached given .empty
  | load {vm : Vm} (files : List ClassFile) :
      vm.Reached given → Reached given (vm.loadClasses files).2
  | text {vm : Vm} (content : String) : vm.Reached given → Reached given (vm.newText content).2
  | invoke {vm : Vm} (limit : Nat) (method : MethodRef) {arguments : List Value}
      {context : Option (Context Value)} : vm.Reached given →
      given vm.state.heap arguments context →
      Reached given (vm.invokeStatic limit method arguments context).2.1
  | execute {runner : Runner MachineCoroutine Value} (limit : Nat) {arguments : List Value} :
      runner.state.vm.Reached given →
      given runner.state.vm.state.heap arguments (some runner.context) →
      Reached given (runner.execute (MachineCoroutine.body limit) arguments).2.state.vm

/-- A machine reached in some way; of what it was given nothing is asked. -/
abbrev Arises (vm : Vm) : Prop := vm.Reached fun _ _ _ => True

end Vm

namespace Runner

/-- The invocation by which a coroutine of the machine is run. -/
def invocation (runner : Runner MachineCoroutine Value) (limit : Nat) (arguments : List Value) :
    Except MachineError (Option Value) × Vm × Option (Context Value) :=
  runner.state.vm.invokeStatic limit runner.state.entry [.context]
    (some (runner.context.pushArguments arguments))

variable {runner : Runner MachineCoroutine Value} {limit : Nat} {arguments : List Value}

theorem execute_terminated (ended : runner.terminated = true) :
    runner.execute (MachineCoroutine.body limit) arguments = (.error .terminated, runner) := by
  simp [execute, ended]

/-- Running a coroutine leaves the machine of its invocation, and no saved frames but those its
invocation leaves. -/
theorem execute_leaves (going : runner.terminated = false) :
    let left := (runner.execute (MachineCoroutine.body limit) arguments).2
    let invoked := runner.invocation limit arguments
    left.state.vm = invoked.2.1 ∧ left.context.chain.frames ⊆
      (invoked.2.2.getD (runner.context.pushArguments arguments)).chain.frames := by
  unfold execute invocation
  rw [if_neg (by simp [going])]
  rcases invoked : runner.state.vm.invokeStatic limit runner.state.entry [.context]
    (some (runner.context.pushArguments arguments)) with ⟨outcome, vm, left⟩
  simp only [MachineCoroutine.body, invoked]
  cases outcome with
  | error cause => exact ⟨rfl, List.Subset.refl _⟩
  | ok value =>
    simp only [Except.map]
    split
    · -- The coroutine is suspended: its frames will be loaded from the first on.
      split
      · rename_i ready turned
        obtain ⟨mode, _, made⟩ := Outcome.bind_eq_ok.mp turned
        cases made
        exact ⟨rfl, List.Subset.refl _⟩
      · exact ⟨rfl, List.Subset.refl _⟩
    · exact ⟨rfl, List.nil_subset _⟩

end Runner

end StackCoroutine
