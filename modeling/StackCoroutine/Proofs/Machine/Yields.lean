import StackCoroutine.Proofs.Bytes.Reading
import StackCoroutine.Proofs.Machine.Execution
import StackCoroutine.Proofs.Machine.Reach

/-!
What instructions do when nothing goes wrong. Every action of the machine has a rule for the case in
which it comes to a value; the rule of an instruction is put together from those of its actions.
-/

namespace StackCoroutine

namespace Exec

variable {α β : Type}

/-- The action comes to a value and leaves a world behind. -/
def Gives (action : Exec α) (before : World) (value : α) (after : World) : Prop :=
  action.run before = (.ok value, after)

namespace Gives

variable {world before middle after : World}

theorem pure (value : α) : Gives (Pure.pure value) world value world := rfl

theorem bind {action : Exec α} {next : α → Exec β} {value : α} {last : β}
    (first : Gives action before value middle) (later : Gives (next value) middle last after) :
    Gives (action >>= next) before last after := by
  have step : (action >>= next).run before =
      ExceptT.bindCont next (action.run before).1 (action.run before).2 := rfl
  unfold Gives at first later ⊢
  rw [step, first]
  exact later

theorem ofMachine {result : Except MachineError α} {value : α} (good : result = .ok value) :
    Gives (Exec.ofMachine result) world value world := by
  subst good
  rfl

theorem ofType {result : Except TypeFault α} {value : α} (good : result = .ok value) :
    Gives (Exec.ofType result) world value world := by
  subst good
  rfl

theorem ofProtocol {result : Except ProtocolError α} {value : α} (good : result = .ok value) :
    Gives (Exec.ofProtocol result) world value world := by
  subst good
  rfl

theorem reading {read : Heap → Except TypeFault α} {value : α}
    (good : read world.heap = .ok value) : Gives (Exec.reading read) world value world :=
  bind (show Gives Exec.heap world world.heap world from rfl) (ofType good)

theorem changing (change : Heap → α × Heap) :
    Gives (Exec.changing change) world (change world.heap).1
      { world with heap := (change world.heap).2 } := rfl

theorem changeHeap (change : Heap → Heap) :
    Gives (Exec.changeHeap change) world () { world with heap := change world.heap } := rfl

theorem nonNull (object : ObjectRef) (action : String) :
    Gives (Exec.nonNull (.ref object) action) world object world := rfl

theorem context {current : Context Value} (attached : world.context = some current) :
    Gives Exec.context world current world := by
  have seen : Gives (get : Exec World) world world world := rfl
  apply seen.bind
  rw [attached]
  exact pure current

theorem setContext (context : Context Value) :
    Gives (Exec.setContext context) world () { world with context := some context } := rfl

theorem argument {native : Native} {arguments : List Value} {index : Nat} {value : Value}
    (passed : arguments[index]? = some value) :
    Gives (native.argument arguments index) world value world := by
  unfold Native.argument
  rw [passed]
  exact pure value

end Gives

end Exec

namespace Execution

variable {α β : Type}

/-- The action comes to a value and leaves an invocation and a world behind. -/
def Yields (action : Execution α) (activation : Activation) (before : World) (value : α)
    (left : Activation) (after : World) : Prop :=
  Exec.Gives (action.run activation) before (value, left) after

namespace Yields

variable {activation middle left : Activation} {world before between after : World}

theorem pure (value : α) :
    Yields (Pure.pure value) activation world value activation world := rfl

theorem bind {action : Execution α} {next : α → Execution β} {value : α} {last : β}
    (first : Yields action activation before value middle between)
    (later : Yields (next value) middle between last left after) :
    Yields (action >>= next) activation before last left after :=
  Exec.Gives.bind first later

theorem lift {action : Exec α} {value : α} (gives : Exec.Gives action before value after) :
    Yields (liftM action) activation before value activation after :=
  Exec.Gives.bind gives (Exec.Gives.pure (value, activation))

variable {method : PreparedMethod} {index : Nat} {locals stack : List Value}

theorem push (value : Value) :
    Yields (Execution.push value) ⟨method, index, locals, stack⟩ world ()
      ⟨method, index, locals, value :: stack⟩ world := rfl

theorem pop {value : Value} :
    Yields Execution.pop ⟨method, index, locals, value :: stack⟩ world value
      ⟨method, index, locals, stack⟩ world := rfl

theorem popKind {kind : Kind} {value : Value} (has : value.kind = kind) :
    Yields (Execution.popKind kind) ⟨method, index, locals, value :: stack⟩ world value
      ⟨method, index, locals, stack⟩ world :=
  bind pop (lift (.ofType (by simp [Value.expectKind, has])))

theorem popInt {value : Int32} :
    Yields Execution.popInt ⟨method, index, locals, .int value :: stack⟩ world value
      ⟨method, index, locals, stack⟩ world := rfl

theorem popObject {object : ObjectRef} {action : String} :
    Yields (Execution.popObject action) ⟨method, index, locals, .ref object :: stack⟩ world object
      ⟨method, index, locals, stack⟩ world := rfl

theorem popMany {arguments : List Value} {count : Nat} (counted : arguments.length = count) :
    Yields (Execution.popMany count) ⟨method, index, locals, arguments.reverse ++ stack⟩ world
      arguments ⟨method, index, locals, stack⟩ world := by
  have front : Decoder.splitFront? count (arguments.reverse ++ stack) =
      some (arguments.reverse, stack) := by
    have length : arguments.reverse.length = count := by simpa using counted
    rw [Runs.splitFront?_some (by simp [counted]), List.take_left' length, List.drop_left' length]
  have seen : Yields (get : Execution Activation) ⟨method, index, locals, arguments.reverse ++ stack⟩
    world ⟨method, index, locals, arguments.reverse ++ stack⟩
    ⟨method, index, locals, arguments.reverse ++ stack⟩ world := rfl
  apply seen.bind
  simp only [front]
  simp only [List.reverse_reverse]
  rfl

theorem readLocal {slot : UInt16} {value : Value} (held : locals[slot.toNat]? = some value) :
    Yields (Execution.readLocal slot) ⟨method, index, locals, stack⟩ world value
      ⟨method, index, locals, stack⟩ world := by
  have seen : Yields (get : Execution Activation) ⟨method, index, locals, stack⟩ world
    ⟨method, index, locals, stack⟩ ⟨method, index, locals, stack⟩ world := rfl
  apply seen.bind
  rw [held]
  exact pure value

theorem writeLocal {slot : UInt16} (value : Value) (inside : slot.toNat < locals.length) :
    Yields (Execution.writeLocal slot value) ⟨method, index, locals, stack⟩ world ()
      ⟨method, index, locals.set slot.toNat value, stack⟩ world := by
  have seen : Yields (get : Execution Activation) ⟨method, index, locals, stack⟩ world
    ⟨method, index, locals, stack⟩ ⟨method, index, locals, stack⟩ world := rfl
  apply seen.bind
  rw [if_pos inside]
  rfl

theorem popMonitor {value : Value} {monitor : Monitor} {action : String}
    (locks : Monitor.ofValue? value = some monitor) :
    Yields (Execution.popMonitor action) ⟨method, index, locals, value :: stack⟩ world monitor
      ⟨method, index, locals, stack⟩ world := by
  cases value <;> cases locks <;> rfl

end Yields

end Execution

/-! ### What an action that came to a value has done -/

theorem Exec.Safe.given {α : Type} {good : α → Prop} {action : Exec α} (safe : Safe good action)
    {before after : World} {value : α} (gives : Gives action before value after) : good value := by
  have holds := safe before
  rw [show action.run before = (.ok value, after) from gives] at holds
  exact holds

namespace Exec.Gives

variable {α β : Type} {before after : World}

theorem bind_inv {action : Exec α} {next : α → Exec β} {last : β}
    (gives : Gives (action >>= next) before last after) :
    ∃ value middle, Gives action before value middle ∧ Gives (next value) middle last after := by
  have step : (action >>= next).run before =
      ExceptT.bindCont next (action.run before).1 (action.run before).2 := rfl
  unfold Gives at gives ⊢
  rw [step] at gives
  rcases ran : action.run before with ⟨cause | value, middle⟩
  · rw [ran] at gives
    cases gives
  · rw [ran] at gives
    exact ⟨value, middle, rfl, gives⟩

theorem ofType_inv {result : Except TypeFault α} {value : α}
    (gives : Gives (Exec.ofType result) before value after) : result = .ok value := by
  cases result <;> cases gives
  rfl

theorem ofMachine_inv {result : Except MachineError α} {value : α}
    (gives : Gives (Exec.ofMachine result) before value after) : result = .ok value := by
  cases result <;> cases gives
  rfl

theorem reading_inv {read : Heap → Except TypeFault α} {value : α}
    (gives : Gives (Exec.reading read) before value after) :
    read before.heap = .ok value ∧ after = before := by
  obtain ⟨_, _, seen, typed⟩ := gives.bind_inv
  cases seen
  have found := typed.ofType_inv
  rw [found] at typed
  cases typed
  exact ⟨found, rfl⟩

theorem context_inv {current : Context Value} (gives : Gives Exec.context before current after) :
    before.context = some current ∧ after = before := by
  obtain ⟨heap, statics, monitors, output, _ | context⟩ := before <;> cases gives
  exact ⟨rfl, rfl⟩

theorem raise_never {className text : String} {value : α}
    (gives : Gives (Exec.raise className text) before value after) : False := by
  cases gives

theorem fail_never {cause : MachineError} {value : α}
    (gives : Gives (Exec.fail cause) before value after) : False := by
  cases gives

end Exec.Gives

namespace Execution.Yields

variable {α β : Type} {activation left : Activation} {before after : World}

theorem bind_inv {action : Execution α} {next : α → Execution β} {last : β}
    (yields : Yields (action >>= next) activation before last left after) :
    ∃ value middle between, Yields action activation before value middle between ∧
      Yields (next value) middle between last left after := by
  obtain ⟨⟨value, middle⟩, between, first, later⟩ := Exec.Gives.bind_inv yields
  exact ⟨value, middle, between, first, later⟩

theorem lift_inv {action : Exec α} {value : α}
    (yields : Yields (liftM action) activation before value left after) :
    left = activation ∧ Exec.Gives action before value after := by
  obtain ⟨given, middle, gives, rest⟩ := Exec.Gives.bind_inv yields
  cases rest
  exact ⟨rfl, gives⟩

theorem get_inv {seen : Activation}
    (yields : Yields (get : Execution Activation) activation before seen left after) :
    seen = activation ∧ left = activation ∧ after = before := by
  cases yields
  exact ⟨rfl, rfl, rfl⟩

theorem readLocal_inv {slot : UInt16} {value : Value}
    (yields : Yields (Execution.readLocal slot) activation before value left after) :
    activation.locals[slot.toNat]? = some value ∧ left = activation := by
  unfold Execution.readLocal at yields
  obtain ⟨seen, _, _, got, rest⟩ := yields.bind_inv
  obtain ⟨rfl, rfl, rfl⟩ := got.get_inv
  split at rest
  · rename_i found held
    cases rest
    exact ⟨held, rfl⟩
  · exact rest.lift_inv.2.fail_never.elim

theorem writeLocal_inv {slot : UInt16} {value : Value}
    (yields : Yields (Execution.writeLocal slot value) activation before () left after) :
    slot.toNat < activation.locals.length ∧
      left = { activation with locals := activation.locals.set slot.toNat value } := by
  unfold Execution.writeLocal at yields
  obtain ⟨seen, _, _, got, rest⟩ := yields.bind_inv
  obtain ⟨rfl, rfl, rfl⟩ := got.get_inv
  split at rest
  · rename_i inside
    cases rest
    exact ⟨inside, rfl⟩
  · exact rest.lift_inv.2.fail_never.elim

theorem popMany_inv {count : Nat} {values : List Value}
    (yields : Yields (Execution.popMany count) activation before values left after) :
    values.length = count ∧ activation = { left with stack := values.reverse ++ left.stack } := by
  unfold Execution.popMany at yields
  obtain ⟨seen, _, _, got, rest⟩ := yields.bind_inv
  obtain ⟨rfl, rfl, rfl⟩ := got.get_inv
  split at rest
  · exact rest.lift_inv.2.fail_never.elim
  · rename_i front low cut
    obtain ⟨whole, counted⟩ := Decoder.splitFront?_eq_some cut
    cases rest
    refine ⟨by simpa using counted, ?_⟩
    rw [List.reverse_reverse, ← whole]

end Execution.Yields

end StackCoroutine
