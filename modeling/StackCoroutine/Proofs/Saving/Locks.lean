import StackCoroutine.Instrument.MonitorTracking
import StackCoroutine.Proofs.Erasing
import StackCoroutine.Proofs.Machine.Passages
import StackCoroutine.Proofs.Machine.ProtocolCalls
import StackCoroutine.Proofs.Saving.Moves

/-!
Execution of the loops over the monitors of a frame. The listed monitors are taken in their order and
given up in the opposite one, so the monitors of the frames further out are not touched.
-/

namespace StackCoroutine

/-- The monitors that values are the handles of. -/
def monitorsOf (values : List Value) : List Monitor := values.filterMap Monitor.ofValue?

/-- Every value is the handle of a monitor. -/
def Lockable (values : List Value) : Prop :=
  ∀ value ∈ values, ∃ monitor, Monitor.ofValue? value = some monitor

theorem monitorsOf_append (first second : List Value) :
    monitorsOf (first ++ second) = monitorsOf first ++ monitorsOf second :=
  List.filterMap_append

theorem Monitors.exit?_concat (held : List Monitor) (monitor : Monitor) :
    Monitors.exit? ⟨held ++ [monitor]⟩ monitor = some ⟨held⟩ := by
  unfold exit?
  have erased : eraseLast? (fun other => other == monitor) (held ++ [monitor]) = some held :=
    eraseLast?_concat (beq_self_eq_true monitor)
  rw [erased]
  rfl

section Numbers

variable {a b : Nat}

theorem ofNat_le (small : a < 2 ^ 31) (small' : b < 2 ^ 31) :
    Int32.ofNat a ≤ Int32.ofNat b ↔ a ≤ b := by
  rw [Int32.le_iff_toInt_le, Int32.toInt_ofNat_of_lt small, Int32.toInt_ofNat_of_lt small']
  exact Int.ofNat_le

theorem ofNat_succ (a : Nat) : Int32.ofNat a + 1 = Int32.ofNat (a + 1) :=
  (Int32.ofNat_add a 1).symm

theorem ofNat_pred (a : Nat) : Int32.ofNat (a + 1) + -1 = Int32.ofNat a := by
  rw [← ofNat_succ, Int32.add_assoc, show (1 : Int32) + -1 = 0 by decide, Int32.add_zero]

end Numbers

structure LockVariables.Typed (locks : LockVariables) : Prop where
  state : locks.state.kind = .ref
  counter : locks.counter.kind = .int
  bound : locks.bound.kind = .int

/-- A layout with variables for the monitors of a method. -/
structure SlotLayout.Tracks (layout : SlotLayout) (own : Nat) (locks : LockVariables) : Prop where
  spread : layout.Spread own
  tracked : layout.locks = some locks
  typed : locks.Typed

namespace SlotLayout.Tracks

variable {layout : SlotLayout} {own : Nat} {locks : LockVariables}

theorem state (tracks : layout.Tracks own locks) :
    layout.varFor? .lockState = some locks.state := by
  simp [varFor?, tracks.tracked]

theorem counter (tracks : layout.Tracks own locks) :
    layout.varFor? .lockCounter = some locks.counter := by
  simp [varFor?, tracks.tracked]

theorem bound (tracks : layout.Tracks own locks) :
    layout.varFor? .lockBound = some locks.bound := by
  simp [varFor?, tracks.tracked]

end SlotLayout.Tracks

section Loops

open Does Performs

variable {classes : ClassTable} {locals stack values : List Value} {world : World}
  {locks : LockVariables} {array : ObjectRef} {element : ValueType} {top done : Label}

/-- What the loop that takes monitors repeats. -/
def enterRound (locks : LockVariables) (top done : Label) : Code :=
  [.label top, locks.counter.load, locks.bound.load, .branchCompare .ge done, .dup,
    locks.counter.load, .arrayLoad .ref, .monitorEnter, .increment locks.counter.slot 1]

/-- The monitor at the place of the counter is taken. -/
theorem enterRound_performs {number : Nat} {value : Value} {monitor : Monitor}
    (typed : locks.Typed) (differ : locks.counter.slot.toNat ≠ locks.bound.slot.toNat)
    (inside : locks.counter.slot.toNat < locals.length)
    (bound : locals[locks.bound.slot.toNat]? = some (.int (Int32.ofNat values.length)))
    (held : world.heap.get array = .ok (.array element values.toArray))
    (few : values.length < 2 ^ 31) (here : values[number]? = some value)
    (lockable : Monitor.ofValue? value = some monitor) :
    Performs classes (enterRound locks top done)
      ⟨locals.set locks.counter.slot.toNat (.int (Int32.ofNat number)), .ref array :: stack, world⟩
      ⟨locals.set locks.counter.slot.toNat (.int (Int32.ofNat (number + 1))),
        .ref array :: stack,
        { world with monitors := world.monitors.enter monitor }⟩ := by
  obtain ⟨low, _⟩ := List.getElem?_eq_some_iff.mp here
  let locals' := locals.set locks.counter.slot.toNat (.int (Int32.ofNat number))
  have counter : locals'[locks.counter.slot.toNat]? = some (.int (Int32.ofNat number)) :=
    List.getElem?_set_self inside
  have bound' : locals'[locks.bound.slot.toNat]? = some (.int (Int32.ofNat values.length)) := by
    rw [List.getElem?_set_ne differ]
    exact bound
  have goes_on : Condition.ge.holds (Int32.ofNat number) (Int32.ofNat values.length) = false := by
    have more : ¬ Int32.ofNat values.length ≤ Int32.ofNat number := by
      rw [ofNat_le few (by omega)]
      omega
    simpa [Condition.holds] using more
  have element_held : world.heap.Holds array number value :=
    ⟨element, _, held, by simpa using here⟩
  have kind : value.kind = .ref := by
    cases value <;> first | rfl | cases lockable
  have counted : Does classes (.increment locks.counter.slot 1)
      ⟨locals', .ref array :: stack, { world with monitors := world.monitors.enter monitor }⟩
      ⟨locals'.set locks.counter.slot.toNat (.int (Int32.ofNat number + 1)), .ref array :: stack,
        { world with monitors := world.monitors.enter monitor }⟩ :=
    increment counter
  rw [List.set_set, ofNat_succ] at counted
  apply cons (label top)
  apply cons (load counter typed.counter.symm)
  apply cons (load bound' typed.bound.symm)
  apply cons (branchCompare goes_on)
  apply cons dup
  apply cons (load counter typed.counter.symm)
  apply cons (arrayLoadAt element_held (by omega) kind)
  apply cons (monitorEnter lockable)
  exact single counted

/-- From any place on, the rest of the monitors is taken. -/
theorem enterLoop_carries (typed : locks.Typed)
    (differ : locks.counter.slot.toNat ≠ locks.bound.slot.toNat)
    (inside : locks.counter.slot.toNat < locals.length)
    (bound : locals[locks.bound.slot.toNat]? = some (.int (Int32.ofNat values.length)))
    (held : world.heap.get array = .ok (.array element values.toArray))
    (few : values.length < 2 ^ 31) {before rest : List Value}
    (split : values = before ++ rest) (lockable : Lockable rest) :
    Carries classes (enterRound locks top done ++ [.jump top, .label done, .pop])
      ⟨locals.set locks.counter.slot.toNat (.int (Int32.ofNat before.length)),
        .ref array :: stack, world⟩
      ⟨locals.set locks.counter.slot.toNat (.int (Int32.ofNat values.length)), stack,
        { world with monitors := ⟨world.monitors.held ++ monitorsOf rest⟩ }⟩ := by
  induction rest generalizing world before with
  | nil =>
      -- All have been taken: the loop is left for the label behind it.
      obtain rfl : values = before := by simpa using split
      intro method index callers resolves has
      let locals' := locals.set locks.counter.slot.toNat (.int (Int32.ofNat values.length))
      have counter : locals'[locks.counter.slot.toNat]? = some (.int (Int32.ofNat values.length)) :=
        List.getElem?_set_self inside
      have bound' : locals'[locks.bound.slot.toNat]? = some (.int (Int32.ofNat values.length)) := by
        rw [List.getElem?_set_ne differ]
        exact bound
      have ends : Condition.ge.holds (Int32.ofNat values.length) (Int32.ofNat values.length) =
          true := by
        simp [Condition.holds]
      have tested : Performs classes [.label top, locks.counter.load, locks.bound.load]
          ⟨locals', .ref array :: stack, world⟩
          ⟨locals', .int (Int32.ofNat values.length) :: .int (Int32.ofNat values.length) ::
            .ref array :: stack, world⟩ := by
        apply cons (label top)
        apply cons (load counter typed.counter.symm)
        exact single (load bound' typed.bound.symm)
      have leaves : Performs classes [.label done, .pop] ⟨locals', .ref array :: stack, world⟩
          ⟨locals', stack, world⟩ := by
        apply cons (label done)
        exact single pop
      have code : enterRound locks top done ++ [.jump top, .label done, .pop] =
          [.label top, locks.counter.load, locks.bound.load] ++
            ([.branchCompare .ge done, .dup, locks.counter.load, .arrayLoad .ref, .monitorEnter,
              .increment locks.counter.slot 1, .jump top] ++ [.label done, .pop]) := rfl
      rw [code] at has
      have last := has.right.right
      apply (tested.reaches has.left callers).trans
      apply (Machine.Reaches.ofLeaps (Leaps.branchCompare ends) has.right.left.head resolves
        last.head).trans
      have unchanged : ({ world with monitors := ⟨world.monitors.held ++ monitorsOf []⟩ } : World) =
          world := by
        simp [monitorsOf]
      rw [unchanged]
      exact leaves.reaches last callers
  | cons value rest ih =>
      obtain ⟨monitor, locks_it⟩ := lockable value List.mem_cons_self
      have here : values[before.length]? = some value := by simp [split]
      have round := @enterRound_performs classes locals stack values world locks array element top
        done before.length value monitor typed differ inside bound held few here locks_it
      have later := @ih { world with monitors := world.monitors.enter monitor } held
        (before ++ [value]) (by simp [split]) fun other member => lockable other (List.mem_cons_of_mem _ member)
      intro method index callers resolves has
      have again : method.code[index]? = some (.label top) := by simpa using has.left.head
      apply (round.reaches has.left callers).trans
      apply (Machine.Reaches.ofLeaps Leaps.jump has.right.head resolves again).trans
      have reached := later method index callers resolves has
      have monitors : monitorsOf (value :: rest) = monitor :: monitorsOf rest := by
        simp [monitorsOf, locks_it]
      rw [List.length_append, List.length_singleton] at reached
      rw [monitors]
      simpa [Monitors.enter] using reached

/-- What the loop that gives monitors up repeats while there are some. -/
def exitRound (locks : LockVariables) (top done : Label) : Code :=
  [.label top, .increment locks.counter.slot (-1), locks.counter.load, .branch .lt done, .dup,
    locks.counter.load, .arrayLoad .ref, .monitorExit]

/-- The latest monitor is given up. -/
theorem exitRound_performs {before : List Value} {value : Value} {monitor : Monitor}
    {outer : List Monitor} (typed : locks.Typed)
    (inside : locks.counter.slot.toNat < locals.length)
    (held : world.heap.get array = .ok (.array element values.toArray))
    (few : values.length < 2 ^ 31) (here : values[before.length]? = some value)
    (lockable : Monitor.ofValue? value = some monitor)
    (monitors : world.monitors = ⟨outer ++ [monitor]⟩) :
    Performs classes (exitRound locks top done)
      ⟨locals.set locks.counter.slot.toNat (.int (Int32.ofNat (before.length + 1))),
        .ref array :: stack, world⟩
      ⟨locals.set locks.counter.slot.toNat (.int (Int32.ofNat before.length)),
        .ref array :: stack, { world with monitors := ⟨outer⟩ }⟩ := by
  obtain ⟨low, _⟩ := List.getElem?_eq_some_iff.mp here
  let locals' := locals.set locks.counter.slot.toNat (.int (Int32.ofNat before.length))
  have counter : locals'[locks.counter.slot.toNat]? = some (.int (Int32.ofNat before.length)) :=
    List.getElem?_set_self inside
  have goes_on : Condition.lt.holds (Int32.ofNat before.length) 0 = false := by
    have above : (0 : Int32) ≤ Int32.ofNat before.length := (place_number (by omega)).1
    simpa [Condition.holds] using above
  have element_held : world.heap.Holds array before.length value :=
    ⟨element, _, held, by simpa using here⟩
  have kind : value.kind = .ref := by
    cases value <;> first | rfl | cases lockable
  have counted : Does classes (.increment locks.counter.slot (-1))
      ⟨locals.set locks.counter.slot.toNat (.int (Int32.ofNat (before.length + 1))),
        .ref array :: stack, world⟩
      ⟨_, .ref array :: stack, world⟩ :=
    increment (List.getElem?_set_self inside)
  rw [List.set_set, ofNat_pred] at counted
  have released : world.monitors.exit? monitor = some ⟨outer⟩ := by
    rw [monitors]
    exact Monitors.exit?_concat outer monitor
  apply cons (label top)
  apply cons counted
  apply cons (load counter typed.counter.symm)
  apply cons (branch goes_on)
  apply cons dup
  apply cons (load counter typed.counter.symm)
  apply cons (arrayLoadAt element_held (by omega) kind)
  exact single (monitorExit lockable released)

/-- From any place on, the monitors listed before it are given up. -/
theorem exitLoop_carries (typed : locks.Typed) (inside : locks.counter.slot.toNat < locals.length)
    (held : world.heap.get array = .ok (.array element values.toArray))
    (few : values.length < 2 ^ 31) {before rest : List Value} (split : values = before ++ rest)
    (lockable : Lockable before) {outer : List Monitor}
    (monitors : world.monitors = ⟨outer ++ monitorsOf before⟩) :
    Carries classes (exitRound locks top done ++ [.jump top, .label done, .pop])
      ⟨locals.set locks.counter.slot.toNat (.int (Int32.ofNat before.length)),
        .ref array :: stack, world⟩
      ⟨locals.set locks.counter.slot.toNat (.int (-1)), stack,
        { world with monitors := ⟨outer⟩ }⟩ := by
  -- On the monitors still listed, from their end: the loop counts down, and gives up the last held.
  induction before using List.reverseRecOn generalizing world rest with
  | nil =>
      intro method index callers resolves has
      let locals' := locals.set locks.counter.slot.toNat (.int (-1))
      -- None is left: the counter falls below zero, and the loop is left.
      have counted : Does classes (.increment locks.counter.slot (-1))
          ⟨locals.set locks.counter.slot.toNat (.int (Int32.ofNat 0)), .ref array :: stack, world⟩
          ⟨_, .ref array :: stack, world⟩ :=
        increment (List.getElem?_set_self inside)
      rw [List.set_set, show Int32.ofNat 0 + -1 = -1 by decide] at counted
      have tested : Performs classes
          [.label top, .increment locks.counter.slot (-1), locks.counter.load]
          ⟨locals.set locks.counter.slot.toNat (.int (Int32.ofNat 0)), .ref array :: stack, world⟩
          ⟨locals', .int (-1) :: .ref array :: stack, world⟩ := by
        apply cons (label top)
        apply cons counted
        exact single (load (List.getElem?_set_self inside) typed.counter.symm)
      have leaves : Performs classes [.label done, .pop] ⟨locals', .ref array :: stack, world⟩
          ⟨locals', stack, world⟩ := by
        apply cons (label done)
        exact single pop
      have code : exitRound locks top done ++ [.jump top, .label done, .pop] =
          [.label top, .increment locks.counter.slot (-1), locks.counter.load] ++
            ([.branch .lt done, .dup, locks.counter.load, .arrayLoad .ref, .monitorExit,
              .jump top] ++ [.label done, .pop]) := rfl
      rw [code] at has
      have last := has.right.right
      have ends : Condition.lt.holds (-1) 0 = true := by decide
      apply (tested.reaches has.left callers).trans
      apply (Machine.Reaches.ofLeaps (Leaps.branch ends) has.right.left.head resolves
        last.head).trans
      have unchanged : ({ world with monitors := ⟨outer⟩ } : World) = world := by
        have same : world.monitors = ⟨outer⟩ := by simpa [monitorsOf] using monitors
        rw [← same]
      rw [unchanged]
      exact leaves.reaches last callers
  | append_singleton before value ih =>
      obtain ⟨monitor, locks_it⟩ := lockable value (by simp)
      have here : values[before.length]? = some value := by simp [split]
      have listed : world.monitors = ⟨(outer ++ monitorsOf before) ++ [monitor]⟩ := by
        rw [monitors, monitorsOf_append, List.append_assoc]
        simp [monitorsOf, locks_it]
      have round := @exitRound_performs classes locals stack values world locks array element top
        done before value monitor (outer ++ monitorsOf before) typed inside held few here locks_it
        listed
      have later := @ih { world with monitors := ⟨outer ++ monitorsOf before⟩ } held
        (value :: rest) (by simp [split])
        (fun other member => lockable other (List.mem_append_left _ member)) rfl
      intro method index callers resolves has
      have again : method.code[index]? = some (.label top) := by simpa using has.left.head
      rw [List.length_append, List.length_singleton]
      apply (round.reaches has.left callers).trans
      apply (Machine.Reaches.ofLeaps Leaps.jump has.right.head resolves again).trans
      exact later method index callers resolves has

end Loops

namespace Carries

open Does Performs

variable {classes : ClassTable} {locals stack values : List Value} {world : World}
  {layout : SlotLayout} {own : Nat} {locks : LockVariables} {object : ObjectRef}

/-- All listed monitors are taken, behind those held already. -/
theorem enterStored (hosts : classes.Hosts) (tracks : layout.Tracks own locks)
    (length : locals.length = layout.maxLocals.toNat) (roomy : world.heap.Roomy 1)
    (stored : locals[locks.state.slot.toNat]? = some (.ref object))
    (held : world.heap.get object = .ok (.lockState ⟨values⟩)) (lockable : Lockable values)
    (few : values.length < 2 ^ 31) (supply : LabelSupply) :
    ∃ locals' heap, Carries classes (locks.enterStored.run supply).1 ⟨locals, stack, world⟩
        ⟨locals', stack, { world with
          heap := heap
          monitors := ⟨world.monitors.held ++ monitorsOf values⟩ }⟩ ∧
      layout.Keeps own {.lockCounter, .lockBound} locals locals' ∧ world.heap.Grows heap 1 := by
  let made := world.heap.alloc (.array (.object Names.object) values.toArray)
  let top : Label := ⟨supply.next⟩
  let done : Label := ⟨supply.next + 1⟩
  let bounded := locals.set locks.bound.slot.toNat (.int (Int32.ofNat values.length))
  have array : made.2.get made.1 = .ok (.array (.object Names.object) values.toArray) :=
    Heap.get_alloc roomy
  have counter_inside : locks.counter.slot.toNat < bounded.length := by
    rw [List.length_set, length]
    exact tracks.spread.inside _ _ tracks.counter
  have bound_inside : locks.bound.slot.toNat < locals.length :=
    length ▸ tracks.spread.inside _ _ tracks.bound
  have differ : locks.counter.slot.toNat ≠ locks.bound.slot.toNat :=
    tracks.spread.apart _ _ _ _ tracks.counter tracks.bound (by simp)
  have counted : Does classes locks.bound.store
      ⟨locals, .int (Int32.ofNat values.length) :: .ref made.1 :: stack,
        { world with heap := made.2 }⟩
      ⟨bounded, .ref made.1 :: stack, { world with heap := made.2 }⟩ :=
    store bound_inside tracks.typed.bound.symm
  have begins : Performs classes
      [locks.state.load, callVirtual Protocol.lockStateToArray, .dup, .arrayLength,
        locks.bound.store, .intConst 0, locks.counter.store]
      ⟨locals, stack, world⟩
      ⟨bounded.set locks.counter.slot.toNat (.int (Int32.ofNat 0)), .ref made.1 :: stack,
        { world with heap := made.2 }⟩ := by
    apply cons (load stored tracks.typed.state.symm)
    apply cons (lockStateToArray hosts held)
    apply cons dup
    apply cons (arrayLength (Heap.array_of_get array))
    apply cons counted
    apply cons (intConst _)
    exact single (store counter_inside tracks.typed.counter.symm)
  have takes := @enterLoop_carries classes bounded stack values { world with heap := made.2 } locks
    made.1 (.object Names.object) top done tracks.typed differ counter_inside
    (List.getElem?_set_self bound_inside) array few [] values rfl lockable
  refine ⟨_, made.2, (ofPerforms begins).append takes, ?_, .alloc _⟩
  have first : layout.Keeps own {.lockCounter, .lockBound} locals bounded :=
    .set tracks.spread tracks.bound (by simp) _
  exact first.trans (.set tracks.spread tracks.counter (by simp) _)

/-- All listed monitors, which are the latest of those held, are given up. -/
theorem exitStored (hosts : classes.Hosts) (tracks : layout.Tracks own locks)
    (length : locals.length = layout.maxLocals.toNat) (roomy : world.heap.Roomy 1)
    (stored : locals[locks.state.slot.toNat]? = some (.ref object))
    (held : world.heap.get object = .ok (.lockState ⟨values⟩)) (lockable : Lockable values)
    (few : values.length < 2 ^ 31) {outer : List Monitor}
    (monitors : world.monitors = ⟨outer ++ monitorsOf values⟩) (supply : LabelSupply) :
    ∃ locals' heap, Carries classes (locks.exitStored.run supply).1 ⟨locals, stack, world⟩
        ⟨locals', stack, { world with heap := heap, monitors := ⟨outer⟩ }⟩ ∧
      layout.Keeps own {.lockCounter} locals locals' ∧ world.heap.Grows heap 1 := by
  let made := world.heap.alloc (.array (.object Names.object) values.toArray)
  have array : made.2.get made.1 = .ok (.array (.object Names.object) values.toArray) :=
    Heap.get_alloc roomy
  have inside : locks.counter.slot.toNat < locals.length :=
    length ▸ tracks.spread.inside _ _ tracks.counter
  have begins : Performs classes
      [locks.state.load, callVirtual Protocol.lockStateToArray, .dup, .arrayLength,
        locks.counter.store]
      ⟨locals, stack, world⟩
      ⟨locals.set locks.counter.slot.toNat (.int (Int32.ofNat values.length)),
        .ref made.1 :: stack, { world with heap := made.2 }⟩ := by
    apply cons (load stored tracks.typed.state.symm)
    apply cons (lockStateToArray hosts held)
    apply cons dup
    apply cons (arrayLength (Heap.array_of_get array))
    exact single (store inside tracks.typed.counter.symm)
  have releases := @exitLoop_carries classes locals stack values { world with heap := made.2 } locks
    made.1 (.object Names.object) ⟨supply.next⟩ ⟨supply.next + 1⟩ tracks.typed inside array few
    values [] (by simp) lockable outer monitors
  refine ⟨_, made.2, (ofPerforms begins).append releases, ?_, .alloc _⟩
  exact .set tracks.spread tracks.counter (by simp) _

end Carries

end StackCoroutine
