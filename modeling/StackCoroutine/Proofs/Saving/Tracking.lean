import StackCoroutine.Proofs.Machine.Raising
import StackCoroutine.Proofs.Saving.Locks

/-!
Tracked monitor instructions in place of plain ones. They take and give up the same monitors, the lock
state lists what the frame holds, and where one throws so does the other, with nothing changed. They
differ in one case only: for null that is given up the lock state, which does not list it, throws
before the plain instruction could.
-/

namespace StackCoroutine

/-- Handles of one monitor are told apart as their monitors are. -/
theorem Value.isSameMonitor_of {value : Value} {monitor : Monitor}
    (locks : Monitor.ofValue? value = some monitor) (held : Value) :
    held.isSameMonitor value = (Monitor.ofValue? held == some monitor) := by
  cases value <;> cases locks <;> cases held <;>
    simp [Value.isSameMonitor, Monitor.ofValue?, beq_eq_decide]

/-- Striking off the latest handle of a monitor strikes off the latest entry for the monitor. -/
theorem monitorsOf_eraseLast? {value : Value} {monitor : Monitor}
    (locks : Monitor.ofValue? value = some monitor) (entries : List Value) :
    eraseLast? (fun held => held == monitor) (monitorsOf entries) =
      (eraseLast? (fun held => held.isSameMonitor value) entries).map monitorsOf := by
  induction entries with
  | nil => rfl
  | cons item rest ih =>
      have same := Value.isSameMonitor_of locks item
      cases handle : Monitor.ofValue? item with
      | none =>
          have passed : monitorsOf (item :: rest) = monitorsOf rest := by simp [monitorsOf, handle]
          rw [handle] at same
          rw [passed, ih, eraseLast?, same]
          cases eraseLast? (fun held => held.isSameMonitor value) rest <;>
            simp [monitorsOf, handle]
      | some other =>
          have listed : ∀ values, monitorsOf (item :: values) = other :: monitorsOf values := by
            intro values
            simp [monitorsOf, handle]
          rw [handle] at same
          rw [listed, eraseLast?, ih, eraseLast?, same]
          cases eraseLast? (fun held => held.isSameMonitor value) rest with
          | some left => simp [listed]
          | none => by_cases here : other = monitor <;> simp [here]

/-- The lock state of a frame lists monitors, and all of them are held. -/
structure LockVariables.Tracking (locks : LockVariables) (object : ObjectRef)
    (entries : List Value) (scene : Scene) : Prop where
  kind : locks.state.kind = .ref
  stored : scene.locals[locks.state.slot.toNat]? = some (.ref object)
  listed : scene.world.heap.get object = .ok (.lockState ⟨entries⟩)
  lockable : Lockable entries
  held : ∀ monitor, (monitorsOf entries).count monitor ≤ scene.world.monitors.count monitor

/-- Code completes where an instruction does, with the same slots, operands and monitors. The lock state
lists some entries afterwards, and no other object has changed. -/
structure LockVariables.Follows (locks : LockVariables) (classes : ClassTable) (object : ObjectRef)
    (insn : Insn) (code : Code) (before plain tracked : Scene) (entries : List Value) : Prop where
  does : Does classes insn before plain
  performs : Performs classes code before tracked
  slots : tracked.locals = plain.locals
  operands : tracked.stack = plain.stack
  world : tracked.world = { plain.world with heap := tracked.world.heap }
  heap : ∀ other ≠ object, tracked.world.heap.get other = plain.world.heap.get other
  tracking : locks.Tracking object entries tracked

namespace LockVariables

open Does Performs

variable {locks : LockVariables} {classes : ClassTable} {object : ObjectRef}
  {entries locals stack : List Value} {value : Value} {monitor : Monitor} {world : World}

theorem Tracking.mem_held (tracking : locks.Tracking object entries ⟨locals, stack, world⟩)
    (among : monitor ∈ monitorsOf entries) : monitor ∈ world.monitors.held := by
  have once := List.count_pos_iff.mpr among
  exact List.count_pos_iff.mp (once.trans_le (tracking.held monitor))

/-- What is taken is listed last. -/
theorem enter_follows (hosts : classes.Hosts)
    (tracking : locks.Tracking object entries ⟨locals, value :: stack, world⟩)
    (handle : Monitor.ofValue? value = some monitor) :
    ∃ plain tracked, locks.Follows classes object .monitorEnter locks.enter
      ⟨locals, value :: stack, world⟩ plain tracked (entries ++ [value]) := by
  let taken : World := { world with monitors := world.monitors.enter monitor }
  have listed : taken.heap.get object = .ok (.lockState ⟨entries⟩) := tracking.listed
  have performs : Performs classes locks.enter ⟨locals, value :: stack, world⟩
      ⟨locals, stack, { taken with
        heap := taken.heap.setLockState object ⟨entries ++ [value]⟩ }⟩ := by
    apply cons dup
    apply cons (monitorEnter handle)
    apply cons (load tracking.stored tracking.kind.symm)
    apply cons swap
    exact single (lockStateEnter hosts value listed)
  refine ⟨⟨locals, stack, taken⟩, _, monitorEnter handle, performs, rfl, rfl, rfl, ?_, ?_⟩
  · intro other different
    exact Heap.get_update_ne (Ne.symm different) _
  · refine ⟨tracking.kind, tracking.stored, Heap.get_update listed _, ?_, ?_⟩
    · intro other member
      rcases List.mem_append.mp member with before | last
      · exact tracking.lockable other before
      · exact List.mem_singleton.mp last ▸ ⟨monitor, handle⟩
    · intro other
      have before : (monitorsOf entries).count other ≤ world.monitors.held.count other :=
        tracking.held other
      have single : monitorsOf [value] = [monitor] := by simp [monitorsOf, handle]
      simp only [monitorsOf_append, single, taken, Monitors.enter, Monitors.count,
        List.count_append]
      omega

/-- What the frame holds is given up, and its latest entry is struck off. -/
theorem exit_follows (hosts : classes.Hosts)
    (tracking : locks.Tracking object entries ⟨locals, value :: stack, world⟩)
    (handle : Monitor.ofValue? value = some monitor) (among : monitor ∈ monitorsOf entries) :
    ∃ left plain tracked, eraseLast? (fun held => held.isSameMonitor value) entries = some left ∧
      locks.Follows classes object .monitorExit locks.exit ⟨locals, value :: stack, world⟩ plain
        tracked left := by
  have erases := monitorsOf_eraseLast? handle entries
  cases erased : eraseLast? (fun held => held.isSameMonitor value) entries with
  | none =>
      rw [erased] at erases
      have absent := eraseLast?_eq_none.mp erases monitor among
      simp at absent
  | some left =>
      rw [erased] at erases
      -- All that is listed is held, so the monitor can be given up.
      have given : ∃ rest, eraseLast? (fun held => held == monitor) world.monitors.held =
          some rest := by
        cases found : eraseLast? (fun held => held == monitor) world.monitors.held with
        | none =>
            have absent := eraseLast?_eq_none.mp found monitor (tracking.mem_held among)
            simp at absent
        | some rest => exact ⟨rest, rfl⟩
      obtain ⟨rest, released⟩ := given
      have exits : world.monitors.exit? monitor = some ⟨rest⟩ := by
        rw [Monitors.exit?, released]
        rfl
      have struck : LockState.exit Value.isSameMonitor ⟨entries⟩ value = .ok ⟨left⟩ := by
        rw [LockState.exit, erased]
      have performs : Performs classes locks.exit ⟨locals, value :: stack, world⟩
          ⟨locals, stack, { world with
            monitors := ⟨rest⟩
            heap := world.heap.setLockState object ⟨left⟩ }⟩ := by
        apply cons dup
        apply cons (load tracking.stored tracking.kind.symm)
        apply cons swap
        apply cons (lockStateExit hosts tracking.listed struck)
        exact single (monitorExit handle exits)
      refine ⟨left, _, _, rfl, monitorExit handle exits, performs, rfl, rfl, rfl, ?_, ?_⟩
      · intro other different
        exact Heap.get_update_ne (Ne.symm different) _
      · refine ⟨tracking.kind, tracking.stored, Heap.get_update tracking.listed _, ?_, ?_⟩
        · intro other member
          exact tracking.lockable other (eraseLast?_subset erased member)
        · intro other
          have before : (monitorsOf entries).count other ≤ world.monitors.held.count other :=
            tracking.held other
          rw [eraseLast?_count erases, eraseLast?_count released] at before
          exact Nat.le_of_add_le_add_right before

/-- Nothing is struck off a lock state that does not list a value, and the call throws. -/
theorem exit_breaks (hosts : classes.Hosts)
    (tracking : locks.Tracking object entries ⟨locals, value :: stack, world⟩)
    (unlisted : eraseLast? (fun held => held.isSameMonitor value) entries = none)
    (roomy : world.heap.Roomy 2) :
    Breaks classes locks.exit ⟨locals, value :: stack, world⟩ Names.illegalMonitorState := by
  refine ⟨[.dup, locks.state.load, .swap], callVirtual Protocol.lockStateExit, [.monitorExit],
    value :: .ref object :: value :: stack, rfl, ?_, ?_⟩
  · apply cons dup
    apply cons (load tracking.stored tracking.kind.symm)
    exact single swap
  · apply Throws.virtualCall hosts .lockStateExit [value] (by simp [providedCalls])
      (className?_of_get tracking.listed)
    have refused : LockState.exit Value.isSameMonitor ⟨entries⟩ value = .error .monitorNotHeld := by
      rw [LockState.exit, unlisted]
    have raises : Exec.Raises (Native.releaseLock .lockStateExit [.ref object, value]) world
        Names.illegalMonitorState := by
      apply Exec.Raises.after (.argument rfl)
      apply Exec.Raises.after (.nonNull object _)
      apply Exec.Raises.after (.argument rfl)
      apply Exec.Raises.after (.reading (lockState_read tracking.listed))
      rw [refused]
      exact .raise roomy _
    exact raises.bind

/-- In place of the plain instructions, the tracked ones take and give up the same monitors and list
those of the frame; they throw an exception of the same class where the plain ones throw, except for
null that is given up, where the lock state throws another. -/
theorem tracked_for_plain (hosts : classes.Hosts)
    (tracking : locks.Tracking object entries ⟨locals, value :: stack, world⟩)
    (roomy : world.heap.Roomy 2) :
    (∀ monitor, Monitor.ofValue? value = some monitor →
      (∃ plain tracked, locks.Follows classes object .monitorEnter locks.enter
        ⟨locals, value :: stack, world⟩ plain tracked (entries ++ [value])) ∧
      (monitor ∈ monitorsOf entries → ∃ left plain tracked,
        eraseLast? (fun held => held.isSameMonitor value) entries = some left ∧
        locks.Follows classes object .monitorExit locks.exit ⟨locals, value :: stack, world⟩
          plain tracked left) ∧
      (monitor ∉ world.monitors.held →
        Throws classes .monitorExit ⟨locals, value :: stack, world⟩ Names.illegalMonitorState ∧
        Breaks classes locks.exit ⟨locals, value :: stack, world⟩ Names.illegalMonitorState)) ∧
    (value = .null →
      (Throws classes .monitorEnter ⟨locals, value :: stack, world⟩ Names.nullPointer ∧
        Breaks classes locks.enter ⟨locals, value :: stack, world⟩ Names.nullPointer) ∧
      Throws classes .monitorExit ⟨locals, value :: stack, world⟩ Names.nullPointer ∧
        Breaks classes locks.exit ⟨locals, value :: stack, world⟩ Names.illegalMonitorState) := by
  constructor
  · intro monitor handle
    refine ⟨enter_follows hosts tracking handle, exit_follows hosts tracking handle, ?_⟩
    intro free
    have unheld : world.monitors.exit? monitor = none := by
      rw [Monitors.exit?, Option.map_eq_none_iff, eraseLast?_eq_none]
      rintro other member
      exact beq_false_of_ne fun same => free (same ▸ member)
    have unlisted : eraseLast? (fun held => held.isSameMonitor value) entries = none := by
      rw [← Option.map_eq_none_iff, ← monitorsOf_eraseLast? handle, eraseLast?_eq_none]
      intro other member
      exact beq_false_of_ne fun same => free (tracking.mem_held (same ▸ member))
    exact ⟨Throws.monitorExit_unheld handle unheld roomy,
      exit_breaks hosts tracking unlisted roomy⟩
  · rintro rfl
    -- Null is no handle of a monitor, so no entry is struck off for it.
    have unlisted : eraseLast? (fun held => held.isSameMonitor .null) entries = none := by
      rw [eraseLast?_eq_none]
      intro other _
      cases other <;> rfl
    refine ⟨⟨Throws.monitorEnter_null roomy, ?_⟩, Throws.monitorExit_null roomy,
      exit_breaks hosts tracking unlisted roomy⟩
    exact ⟨[.dup], .monitorEnter, _, .null :: .null :: stack, rfl, single dup,
      Throws.monitorEnter_null roomy⟩

end LockVariables

end StackCoroutine
