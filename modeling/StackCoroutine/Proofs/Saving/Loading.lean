import StackCoroutine.Proofs.Saving.Frames

/-!
Loading a frame. The arrays come out of the container, the locals out of their arrays, and then the
operand stack, all at once or first the arguments of a call and later what lies below them.
-/

namespace StackCoroutine

open SlotLayout (presentKinds place)

/-- The frame stands for the values of a packed frame. -/
structure Frame.Accepts (classes : ClassTable) (heap : Heap) (frame : Frame)
    (content : UInt16 → Value) (stack : List Value) : Prop where
  locals : ∀ item ∈ storedLocals frame.locals,
    item.1.value.kind = some item.1.kind ∧ item.1.value.Fits classes heap (content item.2)
  stack : List.Forall₂ (fun item value =>
    item.value.kind = some item.kind ∧ item.value.Fits classes heap value)
    (storedStack frame.stack) stack

namespace Frame.Accepts

variable {classes : ClassTable} {heap after : Heap} {frame : Frame} {content : UInt16 → Value}
  {stack : List Value}

theorem later (accepts : frame.Accepts classes heap content stack)
    (keeps : heap.KeepsClasses after) : frame.Accepts classes after content stack where
  locals item member := ⟨(accepts.locals item member).1, (accepts.locals item member).2.later keeps⟩
  stack := accepts.stack.imp fun _ _ here => ⟨here.1, here.2.later keeps⟩

end Frame.Accepts

namespace Performs

open Does

variable {classes : ClassTable} {locals stack values : List Value} {world : World}
  {layout : SlotLayout} {own : Nat} {frame : Frame} {packing : Packing} {content : UInt16 → Value}

/-- The arrays of the locals and those of the operand stack come out of the container. -/
theorem unpack (houses : layout.Houses own frame) (length : locals.length = layout.maxLocals.toNat)
    (held : locals[layout.container.slot.toNat]? = some (.ref packing.container))
    (packs : world.heap.Packs packing layout frame content values) :
    ∃ locals', Performs classes (layout.unpack frame.locals frame.stack)
        ⟨locals, stack, world⟩ ⟨locals', stack, world⟩ ∧
      layout.Keeps own (Set.range Role.localsArray ∪ Set.range Role.stackArray) locals locals' ∧
      Pointing layout.localsArray packing.locals (presentKinds frame.locals) locals' ∧
      Pointing layout.stackArray packing.stack (presentKinds frame.stack) locals' := by
  have small : ∀ kind, place kind + Kind.all.length < 2 ^ 31 := by
    intro kind
    cases kind <;> decide
  obtain ⟨middle, first, keeps, pointing⟩ :=
    @unpackFamily classes locals stack world layout.localsArray packing.locals layout.localsMax.get
      (presentKinds frame.locals) layout own houses.spread .localsArray place packing.container
      (fun _ _ same => by cases same; rfl) houses.localsArrays length houses.container (by simp)
      held (fun kind _ => Nat.lt_of_le_of_lt (Nat.le_add_right _ _) (small kind))
      packs.localsPacked packs.localsArrays
  have apart : Role.container ∉ {other | ∃ kind ∈ presentKinds frame.locals,
      Role.localsArray kind = other} := by
    rintro ⟨kind, _, same⟩
    cases same
  have held' : middle[layout.container.slot.toNat]? = some (.ref packing.container) :=
    (keeps.others .container _ rfl apart).trans held
  obtain ⟨last, second, keeps', pointing'⟩ :=
    @unpackFamily classes middle stack world layout.stackArray packing.stack layout.stackMax.get
      (presentKinds frame.stack) layout own houses.spread .stackArray
      (fun kind => place kind + Kind.all.length) packing.container
      (fun _ _ same => by cases same; rfl) houses.stackArrays (keeps.length.trans length)
      houses.container (by simp) held' (fun kind _ => small kind) packs.stackPacked
      packs.stackArrays
  refine ⟨last, ?_, ?_, ?_, pointing'⟩
  · unfold SlotLayout.unpack SlotLayout.elements
    rw [List.flatMap_append, List.flatMap_map, List.flatMap_map]
    exact first.append second
  · apply (keeps.mono _).trans (keeps'.mono _)
    · rintro role ⟨kind, _, rfl⟩
      exact Or.inl ⟨kind, rfl⟩
    · rintro role ⟨kind, _, rfl⟩
      exact Or.inr ⟨kind, rfl⟩
  · intro kind member
    obtain ⟨var, reference⟩ := houses.localsArrays kind member
    rw [keeps'.others _ _ var (by simp)]
    exact pointing kind member

/-- The locals get back what they held; the variables of generated code keep what they hold. -/
theorem loadLocals (houses : layout.Houses own frame)
    (length : locals.length = layout.maxLocals.toNat)
    (pointing : Pointing layout.localsArray packing.locals (presentKinds frame.locals) locals)
    (packs : world.heap.Packs packing layout frame content values)
    (accepts : frame.Accepts classes world.heap content values) :
    ∃ locals', Performs classes (layout.loadLocals frame.locals) ⟨locals, stack, world⟩
        ⟨locals', stack, world⟩ ∧ Reloads own (storedLocals frame.locals) content locals locals' := by
  have short : frame.locals.length ≤ 65535 := houses.slots.trans_le houses.small
  apply loadSlots pointing _ houses.localsPlaced (length ▸ houses.room)
  · intro item member
    obtain ⟨here, _⟩ := mem_storedLocals short member
    have inside : item.2.toNat < own := houses.slots ▸ (List.getElem?_eq_some_iff.mp here).1
    obtain ⟨has, fits⟩ := accepts.locals item member
    exact ⟨inside, has, packs.locals item member, fits⟩
  · intro kind member
    exact houses.spread.above _ _ (houses.localsArrays kind member).1

/-- What the entries are, where they are held and what they are held as. -/
theorem heldEntries {heap : Heap} {refs : Kind → ObjectRef} {items : List StoredValue}
    (held : heap.HoldsAll refs items values)
    (stands : List.Forall₂ (fun item value =>
      item.value.kind = some item.kind ∧ item.value.Fits classes heap value) items values) :
    List.Forall₂ (fun item value => item.value.kind = some item.kind ∧
      heap.Holds (refs item.kind) item.index value ∧ item.value.Fits classes heap value)
      items values := by
  induction held with
  | nil => exact List.Forall₂.nil
  | cons here _ ih =>
      obtain ⟨⟨has, fits⟩, rest⟩ := List.forall₂_cons.mp stands
      exact List.Forall₂.cons ⟨has, here, fits⟩ (ih rest)

/-- The topmost entries come back from where they are held. -/
theorem loadTop {refs : Kind → ObjectRef} (houses : layout.Houses own frame)
    (pointing : Pointing layout.stackArray refs (presentKinds frame.stack) locals) {count : Nat}
    (held : List.Forall₂ (fun item value => item.value.kind = some item.kind ∧
      world.heap.Holds (refs item.kind) item.index value ∧
      item.value.Fits classes world.heap value) ((storedStack frame.stack).take count) values) :
    Performs classes (layout.loadTop frame.stack count) ⟨locals, stack, world⟩
      ⟨locals, values ++ stack, world⟩ := by
  have placed : Placed layout.stackMax.get (presentKinds frame.stack)
      ((storedStack frame.stack).take count) :=
    fun item member => houses.stackPlaced item (List.mem_of_mem_take member)
  unfold SlotLayout.loadTop
  rw [houses.storedValues_eq, ← List.map_take]
  exact pushEntries pointing placed held

/-- So do the entries below them. -/
theorem loadBelow {refs : Kind → ObjectRef} (houses : layout.Houses own frame)
    (pointing : Pointing layout.stackArray refs (presentKinds frame.stack) locals) {count : Nat}
    (held : List.Forall₂ (fun item value => item.value.kind = some item.kind ∧
      world.heap.Holds (refs item.kind) item.index value ∧
      item.value.Fits classes world.heap value) ((storedStack frame.stack).drop count) values) :
    Performs classes (layout.loadBelow frame.stack count) ⟨locals, stack, world⟩
      ⟨locals, values ++ stack, world⟩ := by
  have placed : Placed layout.stackMax.get (presentKinds frame.stack)
      ((storedStack frame.stack).drop count) :=
    fun item member => houses.stackPlaced item (List.mem_of_mem_drop member)
  unfold SlotLayout.loadBelow
  rw [houses.storedValues_eq, ← List.map_drop]
  exact pushEntries pointing placed held

end Performs

end StackCoroutine
