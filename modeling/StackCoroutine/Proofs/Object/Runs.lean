import StackCoroutine.Proofs.Object.Execution
import StackCoroutine.Proofs.Machine.Described
import StackCoroutine.Proofs.Machine.Histories

/-!
Text constants over whole runs. The object of a constant is made once; in every state of every run,
and after it, the constant is that object, which is its text or a state that a constructor of the
protocol has made of it.
-/

namespace StackCoroutine

namespace Machine

theorem advance_follows (classes : ClassTable) (steps : Nat) (progress : Progress) (world : World) :
    world.heap.Follows classes.Constructs (advance classes steps progress world).2.heap := by
  induction steps generalizing progress world with
  | zero => cases progress <;> exact .refl _
  | succ steps ih =>
      cases progress with
      | done outcome => exact .refl _
      | running activations => exact (step_follows classes activations world).trans (ih _ _)

/-- A run to the end leaves the world of its last step. -/
theorem run_world (classes : ClassTable) (limit : Nat) (progress : Progress) (world : World) :
    (run classes limit progress world).2 = (advance classes limit progress world).2 := by
  have split := run_advance classes limit 0 progress world
  rw [Nat.add_zero] at split
  rw [split]
  cases (advance classes limit progress world).1 <;> rfl

theorem run_follows (classes : ClassTable) (limit : Nat) (progress : Progress) (world : World) :
    world.heap.Follows classes.Constructs (run classes limit progress world).2.heap := by
  rw [run_world]
  exact advance_follows classes limit progress world

end Machine

namespace Vm

variable {vm : Vm} {given : Heap → List Value → Option (Context Value) → Prop}

theorem invokeStatic_follows (vm : Vm) (limit : Nat) (method : MethodRef) (arguments : List Value)
    (context : Option (Context Value)) :
    vm.state.heap.Follows vm.classes.Constructs
      (vm.invokeStatic limit method arguments context).2.1.state.heap := by
  cases found : vm.staticMethod method with
  | error cause =>
      rw [invokeStatic_refused found]
      exact .refl _
  | ok prepared =>
      rw [(invokeStatic_leaves found limit).1]
      exact Machine.run_follows vm.classes limit _ (vm.world context)

theorem initStatic_follows {className : String} {state next : MachineState} {field : Field}
    (done : initStatic className state field = .ok next) : state.heap.Follows True next.heap := by
  obtain ⟨⟨value, grown⟩, made, placed⟩ := Outcome.bind_eq_ok.mp done
  cases placed
  unfold initialValue at made
  split at made
  case h_5 content _ =>
    cases made
    exact .intern _ content
  case h_6 =>
    split at made <;> cases made
    exact .refl _
  all_goals
    cases made
    exact .refl _

theorem loadClasses_follows (vm : Vm) (files : List ClassFile) :
    vm.state.heap.Follows True (vm.loadClasses files).2.state.heap := by
  unfold loadClasses
  split
  · exact .refl _
  · split
    · rename_i state initialised
      exact Outcome.foldlM_keeps (fun state : MachineState => vm.state.heap.Follows True state.heap)
        (fun _ _ _ follows done => follows.trans (initStatic_follows done)) (.refl _) initialised
    · exact .refl _

theorem execute_follows (runner : Runner MachineCoroutine Value) (limit : Nat)
    (arguments : List Value) :
    runner.state.vm.state.heap.Follows runner.state.vm.classes.Constructs
      (runner.execute (MachineCoroutine.body limit) arguments).2.state.vm.state.heap := by
  cases ended : runner.terminated with
  | true =>
      rw [Runner.execute_terminated ended]
      exact .refl _
  | false =>
      rw [(Runner.execute_leaves ended).1]
      exact invokeStatic_follows _ _ _ _ _

/-- The heap of every machine follows the empty one. -/
theorem Reached.follows (reached : vm.Reached given) :
    Heap.empty.Follows True vm.state.heap := by
  -- Over the calls that led here; each heap follows the one before it.
  induction reached with
  | empty => exact .refl _
  | load files _ ih => exact ih.trans (loadClasses_follows _ files)
  | text content _ ih => exact ih.trans (.alloc _ _)
  | invoke limit method _ _ ih =>
      exact ih.trans ((invokeStatic_follows _ limit method _ _).weaken fun _ => trivial)
  | execute limit _ _ ih => exact ih.trans ((execute_follows _ limit _).weaken fun _ => trivial)

/-- Every entry of the table of constants has its object. -/
theorem Reached.reads (reached : vm.Reached given) :
    ∀ entry ∈ vm.state.heap.interned, vm.state.heap.Reads entry := reached.follows.reads nofun

/-- In every state of a run, every constant has its object: its text, unless a lock state or a saved
frame has been made of it; and the constants there were before the run are the objects they were, so
that an instruction for the constant pushes the same reference as ever. -/
theorem constants_kept (reached : vm.Reached given) (progress : Machine.Progress)
    (context : Option (Context Value)) (steps : Nat) :
    let world := (Machine.advance vm.classes steps progress (vm.world context)).2
    (∀ entry ∈ world.heap.interned, world.heap.Reads entry) ∧
      ∀ text object, vm.state.heap.interned.lookup text = some object →
        world.heap.intern text = (object, world.heap) := by
  intro world
  have follows := Machine.advance_follows vm.classes steps progress (vm.world context)
  exact ⟨follows.reads reached.reads, fun text object listed =>
    Heap.intern_old (follows.lookup listed)⟩

end Vm

end StackCoroutine
