import StackCoroutine.Proofs.Machine.ProtocolCalls

/-!
Instructions that throw. The exception is a new object, and so is its message; apart from these two the
world is as it was.
-/

namespace StackCoroutine

/-- The action throws a new exception of a class and leaves the world otherwise alone. -/
def Exec.Raises {α : Type} (action : Exec α) (before : World) (className : String) : Prop :=
  ∃ exception heap, action.run before = (.error (.thrown exception), { before with heap }) ∧
    before.heap.Grows heap 2 ∧ heap.className exception = .ok className

namespace Exec.Raises

variable {α β : Type} {before : World} {className : String}

theorem raise (roomy : before.heap.Roomy 2) (text : String) :
    Raises (Exec.raise className text : Exec α) before className := by
  let message := before.heap.alloc (.text text)
  let made := message.2.alloc (.instance className [(messageField, .ref message.1)])
  have grows : before.heap.Grows made.2 2 :=
    (Heap.Grows.alloc (.text text)).trans (Heap.Grows.alloc _)
  have found : made.2.get made.1 = .ok (.instance className [(messageField, .ref message.1)]) :=
    Heap.get_alloc roomy.alloc
  refine ⟨made.1, made.2, rfl, grows, ?_⟩
  unfold Heap.className
  rw [found]
  rfl

theorem bind {action : Exec α} {next : α → Exec β} (raises : Raises action before className) :
    Raises (action >>= next) before className := by
  obtain ⟨exception, heap, ran, grows, known⟩ := raises
  refine ⟨exception, heap, ?_, grows, known⟩
  have step : (action >>= next).run before =
      ExceptT.bindCont next (action.run before).1 (action.run before).2 := rfl
  rw [step, ran]
  rfl

/-- What comes before has to leave the world as it is. -/
theorem after {action : Exec α} {next : α → Exec β} {value : α}
    (first : Gives action before value before) (raises : Raises (next value) before className) :
    Raises (action >>= next) before className := by
  obtain ⟨exception, heap, ran, grows, known⟩ := raises
  refine ⟨exception, heap, ?_, grows, known⟩
  have step : (action >>= next).run before =
      ExceptT.bindCont next (action.run before).1 (action.run before).2 := rfl
  rw [step, show action.run before = (.ok value, before) from first]
  exact ran

end Exec.Raises

/-- The same of an action within an invocation. -/
def Execution.Raises {α : Type} (action : Execution α) (activation : Activation) (before : World)
    (className : String) : Prop :=
  Exec.Raises (action.run activation) before className

namespace Execution.Raises

variable {α β : Type} {activation left : Activation} {before : World} {className : String}

theorem lift {action : Exec α} (raises : Exec.Raises action before className) :
    Raises (liftM action) activation before className :=
  raises.bind

theorem bind {action : Execution α} {next : α → Execution β}
    (raises : Raises action activation before className) :
    Raises (action >>= next) activation before className :=
  Exec.Raises.bind raises

theorem after {action : Execution α} {next : α → Execution β} {value : α}
    (first : Yields action activation before value left before)
    (raises : Raises (next value) left before className) :
    Raises (action >>= next) activation before className :=
  Exec.Raises.after first raises

end Execution.Raises

/-- The instruction throws a new exception of the class. -/
def Throws (classes : ClassTable) (insn : Insn) (before : Scene) (className : String) : Prop :=
  ∀ method index,
    Execution.Raises (Execution.execute classes insn) ⟨method, index, before.locals, before.stack⟩
      before.world className

/-- Straight code comes to an instruction that throws with nothing but operands changed. -/
def Breaks (classes : ClassTable) (code : List Insn) (before : Scene) (className : String) : Prop :=
  ∃ front insn rest operands, code = front ++ insn :: rest ∧
    Performs classes front before { before with stack := operands } ∧
    Throws classes insn { before with stack := operands } className

namespace Throws

open Exec Execution

variable {classes : ClassTable} {locals stack : List Value} {world : World} {className : String}

theorem popMonitor_null {method : PreparedMethod} {index : Nat} (action : String)
    (roomy : world.heap.Roomy 2) :
    Execution.Raises (popMonitor action) ⟨method, index, locals, .null :: stack⟩ world
      Names.nullPointer := by
  apply Execution.Raises.after Yields.pop
  exact (Execution.Raises.lift (Exec.Raises.raise roomy _)).bind

theorem monitorEnter_null (roomy : world.heap.Roomy 2) :
    Throws classes .monitorEnter ⟨locals, .null :: stack, world⟩ Names.nullPointer :=
  fun _ _ => (popMonitor_null "monitor enter" roomy).bind

theorem monitorExit_null (roomy : world.heap.Roomy 2) :
    Throws classes .monitorExit ⟨locals, .null :: stack, world⟩ Names.nullPointer :=
  fun _ _ => (popMonitor_null "monitor exit" roomy).bind

theorem monitorExit_unheld {value : Value} {monitor : Monitor}
    (locks : Monitor.ofValue? value = some monitor) (free : world.monitors.exit? monitor = none)
    (roomy : world.heap.Roomy 2) :
    Throws classes .monitorExit ⟨locals, value :: stack, world⟩ Names.illegalMonitorState := by
  intro method index
  have seen : Yields (getThe World) ⟨method, index, locals, stack⟩ world world
    ⟨method, index, locals, stack⟩ world := rfl
  apply Execution.Raises.after (Yields.popMonitor locks)
  apply Execution.Raises.after seen
  rw [free]
  exact (Execution.Raises.lift (Exec.Raises.raise roomy _)).bind

/-- A call on an instance of a provided class throws what its method throws. -/
theorem virtualCall (hosts : classes.Hosts) {method : MethodRef} {receiver : Value}
    (native : Native) (arguments : List Value)
    (listed : (method, native, arguments.length) ∈ providedCalls)
    (known : receiver.className? world.heap = some method.owner)
    (called : Exec.Raises (native.call (receiver :: arguments)) world className) :
    Throws classes (callVirtual method)
      ⟨locals, (receiver :: arguments).reverse ++ stack, world⟩ className := by
  obtain ⟨hosted, found, type, typed, counted⟩ := MethodRef.isProvided_iff.mp
    (providedCalls_provided _ listed)
  have start : Gives (dispatchStart .virtual method (receiver :: arguments)) world method.owner
      world := by
    cases receiver with
    | ref _ | context => exact Does.classOf known
    | null | int _ | long _ | float _ | double _ => cases known
  have parsed : method.type.mapError MachineError.descriptor = .ok type := by
    rw [typed]
    rfl
  intro prepared index
  apply Execution.Raises.after (Yields.lift (.ofMachine parsed))
  apply Execution.Raises.after (Yields.popMany (by simp [counted, Dispatch.hasReceiver]))
  apply Execution.Raises.after (Yields.lift start)
  rw [hosts.resolve? hosted found]
  exact (Execution.Raises.lift called).bind

end Throws

end StackCoroutine
