import StackCoroutine.Proofs.Saving.Dispatch
import StackCoroutine.Proofs.Saving.Loading
import StackCoroutine.Proofs.Saving.Storing

/-!
What the saving and the restoring code of a continuation point rely on: the monitors that the
invocation has recorded, and the frame that is saved from its slots and operands.
-/

namespace StackCoroutine

/-- A lock state lists so many monitors; without one there are none. -/
structure Heap.Lists (heap : Heap) (lockState : Option ObjectRef) (entries : List Value) : Prop where
  held : ∀ object, lockState = some object → heap.get object = .ok (.lockState ⟨entries⟩)
  empty : lockState = none → entries = []
  lockable : Lockable entries
  few : entries.length < 2 ^ 31

theorem Heap.Lists.grow {heap after : Heap} {lockState : Option ObjectRef} {entries : List Value}
    (lists : heap.Lists lockState entries) (grows : heap.Extends after) :
    after.Lists lockState entries :=
  { lists with held := fun object given => grows _ _ (lists.held object given) }

/-- The monitors that an invocation has recorded. -/
structure MethodPlan.Records (plan : MethodPlan) (locals : List Value) (heap : Heap)
    (lockState : Option ObjectRef) (entries : List Value) : Prop
    extends heap.Lists lockState entries where
  tracked : plan.HasLockState locals lockState

namespace MethodPlan

variable {plan : MethodPlan} {own : Nat} {locals locals' : List Value} {heap after : Heap}
  {lockState : Option ObjectRef} {entries : List Value} {roles : Set Role}

theorem HasLockState.of_get (tracked : plan.HasLockState locals lockState)
    (same : ∀ var, plan.layout.varFor? .lockState = some var →
      locals'[var.slot.toNat]? = locals[var.slot.toNat]?) :
    plan.HasLockState locals' lockState := by
  unfold HasLockState at tracked ⊢
  cases given : plan.layout.locks with
  | none =>
      cases lockState with
      | none => trivial
      | some object => simp [given] at tracked
  | some locks =>
      cases lockState with
      | none => simp [given] at tracked
      | some object =>
          simp only [given] at tracked ⊢
          exact ⟨tracked.1, (same _ (by simp [SlotLayout.varFor?, given])).trans tracked.2⟩

theorem HasLockState.later (tracked : plan.HasLockState locals lockState)
    (keeps : plan.layout.Keeps own roles locals locals') (apart : .lockState ∉ roles) :
    plan.HasLockState locals' lockState :=
  tracked.of_get fun _ found => keeps.others _ _ found apart

theorem Records.grow (records : plan.Records locals heap lockState entries)
    (grows : heap.Extends after) : plan.Records locals after lockState entries :=
  ⟨records.toLists.grow grows, records.tracked⟩

theorem Records.later (records : plan.Records locals heap lockState entries)
    (keeps : plan.layout.Keeps own roles locals locals') (apart : .lockState ∉ roles)
    (grows : heap.Extends after) : plan.Records locals' after lockState entries :=
  { records.grow grows with tracked := records.tracked.later keeps apart }

theorem Attached.keeps {world next : World} {current later : Context Value}
    (attached : plan.Attached locals world current) (equipped : plan.Equipped own)
    (keeps : plan.layout.Keeps own roles locals locals') (runs : next.context = some later) :
    plan.Attached locals' next later :=
  attached.later (keeps.own _ equipped.below) runs

/-- Locks that are there have their variables. -/
theorem Records.tracks (records : plan.Records locals heap lockState entries)
    (equipped : plan.Equipped own) {locks : LockVariables} (given : plan.layout.locks = some locks) :
    plan.layout.Tracks own locks ∧ ∃ object, lockState = some object ∧
      locals[locks.state.slot.toNat]? = some (.ref object) := by
  have tracked := records.tracked
  unfold HasLockState at tracked
  cases lockState with
  | none => simp [given] at tracked
  | some object =>
      simp only [given] at tracked
      exact ⟨⟨equipped.spread, given, equipped.locks locks given⟩, object, rfl, tracked.2⟩

theorem Records.absent (records : plan.Records locals heap lockState entries)
    (given : plan.layout.locks = none) : entries = [] := by
  have tracked := records.tracked
  unfold HasLockState at tracked
  cases lockState with
  | none => exact records.empty rfl
  | some object => simp [given] at tracked

end MethodPlan

namespace Carries

open Does Performs

variable {classes : ClassTable} {plan : MethodPlan} {own : Nat} {locals stack entries : List Value}
  {world : World} {lockState : Option ObjectRef}

/-- The recorded monitors are given up. -/
theorem release (hosts : classes.Hosts) (equipped : plan.Equipped own)
    (records : plan.Records locals world.heap lockState entries)
    (length : locals.length = plan.layout.maxLocals.toNat) (roomy : world.heap.Roomy 1)
    {outer : List Monitor} (monitors : world.monitors = ⟨outer ++ monitorsOf entries⟩)
    (supply : LabelSupply) :
    ∃ locals' heap, Carries classes (plan.exitStored.run supply).1 ⟨locals, stack, world⟩
        ⟨locals', stack, { world with heap := heap, monitors := ⟨outer⟩ }⟩ ∧
      plan.layout.Keeps own {.lockCounter} locals locals' ∧ world.heap.Grows heap 1 := by
  unfold MethodPlan.exitStored MethodPlan.withLocks
  cases given : plan.layout.locks with
  | none =>
      refine ⟨locals, world.heap, ?_, .refl, (Heap.Grows.refl _).mono (Nat.zero_le _)⟩
      have unchanged : ({ world with monitors := ⟨outer⟩ } : World) = world := by
        rw [records.absent given] at monitors
        have same : world.monitors = ⟨outer⟩ := by simpa [monitorsOf] using monitors
        rw [← same]
      show Carries classes [] _ ⟨locals, stack, { world with monitors := ⟨outer⟩ }⟩
      rw [unchanged]
      exact nil
  | some locks =>
      obtain ⟨tracks, object, present, stored⟩ := records.tracks equipped given
      exact exitStored hosts tracks length roomy stored (records.held object present)
        records.lockable records.few monitors supply

/-- The recorded monitors are taken again. -/
theorem acquire (hosts : classes.Hosts) (equipped : plan.Equipped own)
    (records : plan.Records locals world.heap lockState entries)
    (length : locals.length = plan.layout.maxLocals.toNat) (roomy : world.heap.Roomy 1)
    (supply : LabelSupply) :
    ∃ locals' heap, Carries classes (plan.enterStored.run supply).1 ⟨locals, stack, world⟩
        ⟨locals', stack, { world with
          heap := heap
          monitors := ⟨world.monitors.held ++ monitorsOf entries⟩ }⟩ ∧
      plan.layout.Keeps own {.lockCounter, .lockBound} locals locals' ∧
      world.heap.Grows heap 1 := by
  unfold MethodPlan.enterStored MethodPlan.withLocks
  cases given : plan.layout.locks with
  | none =>
      refine ⟨locals, world.heap, ?_, .refl, (Heap.Grows.refl _).mono (Nat.zero_le _)⟩
      have unchanged : ({ world with
          monitors := ⟨world.monitors.held ++ monitorsOf entries⟩ } : World) = world := by
        simp [records.absent given, monitorsOf]
      show Carries classes [] _ ⟨locals, stack, { world with
        monitors := ⟨world.monitors.held ++ monitorsOf entries⟩ }⟩
      rw [unchanged]
      exact nil
  | some locks =>
      obtain ⟨tracks, object, present, stored⟩ := records.tracks equipped given
      exact enterStored hosts tracks length roomy stored (records.held object present)
        records.lockable records.few supply

end Carries

/-- Packed contents matter only for the locals that are saved. -/
theorem Heap.Packs.congr {heap : Heap} {packing : Packing} {layout : SlotLayout} {frame : Frame}
    {content other : UInt16 → Value} {stack : List Value}
    (packs : heap.Packs packing layout frame content stack)
    (same : ∀ item ∈ storedLocals frame.locals, content item.2 = other item.2) :
    heap.Packs packing layout frame other stack :=
  { packs with locals := fun item member => same item member ▸ packs.locals item member }

section

variable {classes : ClassTable} {layout : SlotLayout} {own : Nat} {frame : Frame} {heap : Heap}
  {locals locals' values : List Value} {roles : Set Role}

/-- Variables of generated code make no difference to what is saved of the locals. -/
theorem slotContent_keeps (houses : layout.Houses own frame)
    (keeps : layout.Keeps own roles locals locals') :
    ∀ item ∈ storedLocals frame.locals,
      locals'[item.2.toNat]? = locals[item.2.toNat]? ∧
        slotContent locals' item.2 = slotContent locals item.2 := by
  intro item member
  have short : frame.locals.length ≤ 65535 := houses.slots.trans_le houses.small
  obtain ⟨here, _⟩ := mem_storedLocals short member
  have inside : item.2.toNat < own := houses.slots ▸ (List.getElem?_eq_some_iff.mp here).1
  have same := keeps.own _ inside
  refine ⟨same, ?_⟩
  unfold slotContent
  rw [same]

theorem Frame.Fits.keptSlots (houses : layout.Houses own frame)
    (fits : frame.Fits classes heap locals values) (keeps : layout.Keeps own roles locals locals') :
    ∀ item ∈ storedLocals frame.locals,
      locals'[item.2.toNat]? = some (slotContent locals' item.2) ∧
        (slotContent locals' item.2).kind = item.1.kind := by
  intro item member
  have short : frame.locals.length ≤ 65535 := houses.slots.trans_le houses.small
  obtain ⟨held, has, stands⟩ := fits.slots short item member
  obtain ⟨same, content⟩ := slotContent_keeps houses keeps item member
  rw [same, content]
  exact ⟨held, stands.kind has⟩

theorem Frame.Fits.entries (houses : layout.Houses own frame)
    (fits : frame.Fits classes heap locals values) :
    List.Forall₂ (fun item value => item.value.kind = some item.kind ∧
      item.value.Fits classes heap value) (storedStack frame.stack) values := by
  obtain ⟨kinds, useful⟩ := houses.entries
  exact storedStack_forall₂ useful fits.stack

theorem Frame.Fits.entryKinds (houses : layout.Houses own frame)
    (fits : frame.Fits classes heap locals values) :
    List.Forall₂ (fun item value => value.kind = item.kind) (storedStack frame.stack) values :=
  (fits.entries houses).imp fun _ _ here => here.2.kind here.1

/-- A frame accepts what has been saved of it. -/
theorem Frame.Fits.accepts (houses : layout.Houses own frame)
    (fits : frame.Fits classes heap locals values) :
    frame.Accepts classes heap (slotContent locals) values := by
  refine ⟨?_, fits.entries houses⟩
  intro item member
  have short : frame.locals.length ≤ 65535 := houses.slots.trans_le houses.small
  obtain ⟨_, has, stands⟩ := fits.slots short item member
  exact ⟨has, stands⟩

end

/-- The slots hold what has been saved of them. -/
def Frame.Restored (frame : Frame) (content : UInt16 → Value) (locals : List Value) : Prop :=
  ∀ item ∈ storedLocals frame.locals, locals[item.2.toNat]? = some (content item.2)

namespace Reloads

variable {plan : MethodPlan} {own : Nat} {frame : Frame} {content : UInt16 → Value}
  {locals locals' : List Value}

/-- Where the locals come back, the variables of generated code stay. -/
theorem above (reloads : Reloads own (storedLocals frame.locals) content locals locals')
    (slots : frame.locals.length = own) (small : own ≤ 65535) {slot : Nat} (high : own ≤ slot) :
    locals'[slot]? = locals[slot]? := by
  apply reloads.others
  intro item member same
  obtain ⟨here, _⟩ := mem_storedLocals (slots.trans_le small) member
  have inside := (List.getElem?_eq_some_iff.mp here).1
  omega

theorem hasLockState {lockState : Option ObjectRef}
    (reloads : Reloads own (storedLocals frame.locals) content locals locals')
    (slots : frame.locals.length = own) (small : own ≤ 65535) (spread : plan.layout.Spread own)
    (tracked : plan.HasLockState locals lockState) : plan.HasLockState locals' lockState :=
  tracked.of_get fun _ found => reloads.above slots small (spread.above _ _ found)

/-- The context is what it was, or what has been saved of it. -/
theorem context (reloads : Reloads own (storedLocals frame.locals) content locals locals')
    {slot : UInt16} (saved : content slot = .context) (passed : locals[slot.toNat]? = some .context) :
    locals'[slot.toNat]? = some .context := by
  by_cases listed : ∃ item ∈ storedLocals frame.locals, item.2.toNat = slot.toNat
  · obtain ⟨item, member, same⟩ := listed
    have slots : item.2 = slot := UInt16.toNat_inj.mp same
    rw [← same, reloads.loaded item member, slots, saved]
  · rw [reloads.others _ fun item member same => listed ⟨item, member, same⟩]
    exact passed

end Reloads

end StackCoroutine
