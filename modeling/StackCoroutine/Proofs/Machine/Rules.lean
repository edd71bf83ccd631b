import StackCoroutine.Proofs.Machine.Yields

/-!
What single instructions do to the slots and operands of an invocation and to the world, when
nothing goes wrong.
-/

namespace StackCoroutine

/-- Class of a reference that is not null. -/
def Value.className? (heap : Heap) : Value → Option String
  | .ref object => (heap.className object).toOption
  | .context => some Protocol.contextClass
  | _ => none

/-- The value is no null and an instance of the named class. -/
def Value.IsInstance (classes : ClassTable) (heap : Heap) (name : String) (value : Value) : Prop :=
  ∃ className, value.className? heap = some className ∧
    classes.hierarchy.isAssignable name className = true

namespace Does

open Execution

variable {classes : ClassTable} {locals stack : List Value} {world after : World}

/-- A rule from what the instruction yields. -/
theorem ofYields {insn : Insn} {locals' stack' : List Value}
    (yields : ∀ method index, Yields (execute classes insn) ⟨method, index, locals, stack⟩ world
      Flow.next ⟨method, index, locals', stack'⟩ after) :
    Does classes insn ⟨locals, stack, world⟩ ⟨locals', stack', after⟩ :=
  yields

theorem load {kind : Kind} {slot : UInt16} {value : Value}
    (held : locals[slot.toNat]? = some value) (has : value.kind = kind) :
    Does classes (.load kind slot) ⟨locals, stack, world⟩ ⟨locals, value :: stack, world⟩ := by
  apply ofYields
  intro method index
  have fits : value.expectKind kind = .ok value := by simp [Value.expectKind, has]
  apply (Yields.readLocal held).bind
  apply (Yields.lift (.ofType fits)).bind
  apply (Yields.push value).bind
  exact Yields.pure _

theorem store {kind : Kind} {slot : UInt16} {value : Value} (inside : slot.toNat < locals.length)
    (has : value.kind = kind) :
    Does classes (.store kind slot) ⟨locals, value :: stack, world⟩
      ⟨locals.set slot.toNat value, stack, world⟩ := by
  apply ofYields
  intro method index
  apply (Yields.popKind has).bind
  apply (Yields.writeLocal value inside).bind
  exact Yields.pure _

theorem increment {slot : UInt16} {amount value : Int32}
    (held : locals[slot.toNat]? = some (.int value)) :
    Does classes (.increment slot amount) ⟨locals, stack, world⟩
      ⟨locals.set slot.toNat (.int (value + amount)), stack, world⟩ := by
  apply ofYields
  intro method index
  apply (Yields.readLocal held).bind
  apply (Yields.lift (.ofType (show (Value.int value).asInt = .ok value from rfl))).bind
  apply (Yields.writeLocal _ (List.getElem?_eq_some_iff.mp held).1).bind
  exact Yields.pure _

theorem newArray {element : ValueType} {length : Int32} (positive : 0 ≤ length) :
    Does classes (.newArray element) ⟨locals, .int length :: stack, world⟩
      ⟨locals, .ref (world.heap.newArray element length.toInt.toNat).1 :: stack,
        { world with heap := (world.heap.newArray element length.toInt.toNat).2 }⟩ := by
  apply ofYields
  intro method index
  apply Yields.popInt.bind
  rw [if_neg (Int32.not_lt.mpr positive)]
  apply (Yields.lift (.changing fun heap => heap.newArray element length.toInt.toNat)).bind
  apply (Yields.push _).bind
  exact Yields.pure _

theorem elementIndex {array : ObjectRef} {values : Array Value} {index : Int32}
    (held : world.heap.array array = .ok values) (low : 0 ≤ index)
    (high : index.toInt.toNat < values.size) :
    Exec.Gives (Execution.elementIndex array index) world index.toInt.toNat world := by
  apply (Exec.Gives.reading held).bind
  rw [if_pos ⟨low, high⟩]
  exact Exec.Gives.pure _

theorem arrayLength {array : ObjectRef} {values : Array Value}
    (held : world.heap.array array = .ok values) :
    Does classes .arrayLength ⟨locals, .ref array :: stack, world⟩
      ⟨locals, .int (Int32.ofNat values.size) :: stack, world⟩ := by
  apply ofYields
  intro method index
  apply Yields.popObject.bind
  apply (Yields.lift (.reading held)).bind
  apply (Yields.push _).bind
  exact Yields.pure _

theorem arrayLoad {kind : Kind} {array : ObjectRef} {values : Array Value} {place : Int32}
    {value : Value} (held : world.heap.array array = .ok values) (low : 0 ≤ place)
    (found : values[place.toInt.toNat]? = some value) (has : value.kind = kind) :
    Does classes (.arrayLoad kind) ⟨locals, .int place :: .ref array :: stack, world⟩
      ⟨locals, value :: stack, world⟩ := by
  obtain ⟨inside, _⟩ := Array.getElem?_eq_some_iff.mp found
  have element : (values.getD place.toInt.toNat .null).expectKind kind = .ok value := by
    rw [Array.getD_eq_getD_getElem?, found]
    simp [Value.expectKind, has]
  apply ofYields
  intro method index
  apply Yields.popInt.bind
  apply Yields.popObject.bind
  apply (Yields.lift (elementIndex held low inside)).bind
  apply (Yields.lift (.reading held)).bind
  apply (Yields.lift (.ofType element)).bind
  apply (Yields.push value).bind
  exact Yields.pure _

theorem arrayStore {kind : Kind} {array : ObjectRef} {values : Array Value} {place : Int32}
    {value : Value} (held : world.heap.array array = .ok values) (low : 0 ≤ place)
    (inside : place.toInt.toNat < values.size) (has : value.kind = kind) :
    Does classes (.arrayStore kind) ⟨locals, value :: .int place :: .ref array :: stack, world⟩
      ⟨locals, stack,
        { world with heap := world.heap.setElement array place.toInt.toNat value }⟩ := by
  apply ofYields
  intro method index
  apply (Yields.popKind has).bind
  apply Yields.popInt.bind
  apply Yields.popObject.bind
  apply (Yields.lift (elementIndex held low inside)).bind
  apply (Yields.lift (.changeHeap fun heap => heap.setElement array place.toInt.toNat value)).bind
  exact Yields.pure _

theorem classOf {value : Value} {className : String}
    (known : value.className? world.heap = some className) :
    Exec.Gives (Execution.classOf value) world className world := by
  cases value with
  | ref object =>
      exact .reading (Outcome.toOption_eq_some.mp known)
  | context =>
      cases known
      exact Exec.Gives.pure _
  | null | int _ | long _ | float _ | double _ => cases known

/-- A cast of null, or to a class that the value is an instance of. -/
theorem checkCast {value : Value} {name : String}
    (fits : value = .null ∨ value.IsInstance classes world.heap name) :
    Does classes (.checkCast name) ⟨locals, value :: stack, world⟩
      ⟨locals, value :: stack, world⟩ := by
  apply ofYields
  intro method index
  apply Yields.pop.bind
  rcases fits with rfl | ⟨className, known, assignable⟩
  · apply (Yields.push _).bind
    exact Yields.pure _
  · have present : value.isNull = false := by
      cases value <;> first | rfl | cases known
    have instance_of : Exec.Gives (isInstance classes value name) world true world := by
      apply (classOf known).bind
      rw [assignable]
      exact Exec.Gives.pure true
    rw [present]
    apply (Yields.lift instance_of).bind
    apply (Yields.push _).bind
    exact Yields.pure _

theorem new {className : String} {fields : Slots} (known : classes.isKnown className = true)
    (initial : initialFields classes className = .ok fields) :
    Does classes (.new className) ⟨locals, stack, world⟩
      ⟨locals, .ref (world.heap.alloc (.instance className fields)).1 :: stack,
        { world with heap := (world.heap.alloc (.instance className fields)).2 }⟩ := by
  apply ofYields
  intro method index
  dsimp only [execute]
  rw [known]
  apply (Yields.lift (.ofMachine initial)).bind
  apply (Yields.lift (.changing fun heap => heap.alloc (.instance className fields))).bind
  apply (Yields.push _).bind
  exact Yields.pure _

theorem monitorEnter {value : Value} {monitor : Monitor}
    (locks : Monitor.ofValue? value = some monitor) :
    Does classes .monitorEnter ⟨locals, value :: stack, world⟩
      ⟨locals, stack, { world with monitors := world.monitors.enter monitor }⟩ := by
  apply ofYields
  intro method index
  exact (Yields.popMonitor locks).bind rfl

theorem monitorExit {value : Value} {monitor : Monitor} {left : Monitors}
    (locks : Monitor.ofValue? value = some monitor)
    (held : world.monitors.exit? monitor = some left) :
    Does classes .monitorExit ⟨locals, value :: stack, world⟩
      ⟨locals, stack, { world with monitors := left }⟩ := by
  apply ofYields
  intro method index
  have seen : Yields (getThe World) ⟨method, index, locals, stack⟩ world world
    ⟨method, index, locals, stack⟩ world := rfl
  apply (Yields.popMonitor locks).bind
  apply seen.bind
  rw [held]
  exact rfl

/-- A call of a method of the machine. -/
theorem nativeCall {dispatch : Dispatch} {method : MethodRef} {type : MethodType}
    {arguments : List Value} {start : String} {native : Native} {result : Option Value}
    (typed : method.type = .ok type)
    (counted : arguments.length = type.parameters.length + if dispatch.hasReceiver then 1 else 0)
    (begins : Exec.Gives (dispatchStart dispatch method arguments) world start world)
    (resolved : classes.resolve? start method.name method.descriptor = some (.native native))
    (called : Exec.Gives (native.call arguments) world result after) :
    Does classes (.invoke dispatch method) ⟨locals, arguments.reverse ++ stack, world⟩
      ⟨locals, result.toList ++ stack, after⟩ := by
  apply ofYields
  intro prepared index
  have parsed : method.type.mapError MachineError.descriptor = .ok type := by
    rw [typed]
    rfl
  apply (Yields.lift (.ofMachine parsed)).bind
  apply (Yields.popMany counted).bind
  apply (Yields.lift begins).bind
  rw [resolved]
  apply (Yields.lift called).bind
  cases result with
  | none => exact Yields.pure _
  | some value => exact rfl

end Does

end StackCoroutine
