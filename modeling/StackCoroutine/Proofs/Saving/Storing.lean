import StackCoroutine.Proofs.Saving.Frames

/-!
Saving a frame. The operand stack goes into its arrays first, in one or two portions; the locals
follow, and all arrays go into a new container.
-/

namespace StackCoroutine

open SlotLayout (presentKinds place)

/-- Slots and operand stack are some that the frame stands for. -/
structure Frame.Fits (classes : ClassTable) (heap : Heap) (frame : Frame)
    (locals stack : List Value) : Prop where
  locals : ∀ (slot : Nat) (entry : FrameValue), frame.locals[slot]? = some entry →
    ∃ value, locals[slot]? = some value ∧ entry.Fits classes heap value
  stack : List.Forall₂ (fun (entry : FrameValue) value => entry.Fits classes heap value)
    frame.stack stack

/-- What a slot holds, null if there is no such slot. -/
def slotContent (locals : List Value) (slot : UInt16) : Value := locals[slot.toNat]?.getD .null

theorem Frame.Fits.slots {classes : ClassTable} {heap : Heap} {frame : Frame}
    {locals stack : List Value} (fits : frame.Fits classes heap locals stack)
    (short : frame.locals.length ≤ 65535) :
    ∀ item ∈ storedLocals frame.locals, locals[item.2.toNat]? = some (slotContent locals item.2) ∧
      item.1.value.kind = some item.1.kind ∧
      item.1.value.Fits classes heap (slotContent locals item.2) := by
  intro item member
  obtain ⟨here, has⟩ := mem_storedLocals short member
  obtain ⟨value, held, stands⟩ := fits.locals _ _ here
  have same : slotContent locals item.2 = value := by
    unfold slotContent
    rw [held]
    rfl
  rw [same]
  exact ⟨held, has, stands⟩

theorem storedStack_forall₂ {entries : List FrameValue} {values : List Value} {kinds : List Kind}
    {relation : FrameValue → Value → Prop} (useful : entries.map FrameValue.kind = kinds.map some)
    (related : List.Forall₂ relation entries values) :
    List.Forall₂ (fun item value => item.value.kind = some item.kind ∧ relation item.value value)
      (storedStack entries) values := by
  induction related generalizing kinds with
  | nil => exact List.Forall₂.nil
  | @cons entry value entries values here _ ih =>
      cases kinds with
      | nil => simp at useful
      | cons kind others =>
          obtain ⟨has, rest⟩ := List.cons.inj useful
          have split : storedStack (entry :: entries) =
              ⟨entry, kind, countKind kind entries⟩ :: storedStack entries := by
            unfold storedStack
            rw [storedValues, has]
            rfl
          rw [split]
          exact List.Forall₂.cons ⟨has, here⟩ (ih rest)

theorem presentKinds_length (values : List FrameValue) : (presentKinds values).length ≤ 5 :=
  List.length_filter_le _ Kind.all

/-- Arrays for an operand stack that hold its topmost entries. -/
structure Heap.HoldsTop (base heap : Heap) (refs : Kind → ObjectRef) (layout : SlotLayout)
    (frame : Frame) (count : Nat) (values : List Value) : Prop where
  spans : heap.Spans refs layout.stackMax.get (presentKinds frame.stack)
  injective : ∀ kind ∈ presentKinds frame.stack, ∀ other ∈ presentKinds frame.stack,
    refs kind = refs other → kind = other
  new : ∀ kind ∈ presentKinds frame.stack, ∀ held, base.get (refs kind) ≠ .ok held
  holds : heap.HoldsAll refs ((storedStack frame.stack).take count) values

namespace Performs

variable {classes : ClassTable} {locals stack : List Value} {world : World} {layout : SlotLayout}
  {own : Nat} {frame : Frame} {refs : Kind → ObjectRef}

/-- The topmost entries of the operand stack go into their arrays. -/
theorem saveTop (houses : layout.Houses own frame)
    (pointing : Pointing layout.stackArray refs (presentKinds frame.stack) locals)
    (spans : world.heap.Spans refs layout.stackMax.get (presentKinds frame.stack)) {count : Nat}
    {values : List Value}
    (kept : List.Forall₂ (fun item value => value.kind = item.kind)
      ((storedStack frame.stack).take count) values) :
    Performs classes (layout.saveStack frame.stack count) ⟨locals, values ++ stack, world⟩
      ⟨locals, stack, { world with
        heap := world.heap.fill refs (((storedStack frame.stack).take count).zip values) }⟩ := by
  have placed : Placed layout.stackMax.get (presentKinds frame.stack)
      ((storedStack frame.stack).take count) :=
    fun item member => houses.stackPlaced item (List.mem_of_mem_take member)
  unfold SlotLayout.saveStack
  rw [houses.storedValues_eq, ← List.map_take]
  exact saveEntries pointing spans placed kept

/-- The entries below the topmost ones go into their arrays. -/
theorem saveLower (houses : layout.Houses own frame)
    (pointing : Pointing layout.stackArray refs (presentKinds frame.stack) locals)
    (spans : world.heap.Spans refs layout.stackMax.get (presentKinds frame.stack)) {count : Nat}
    {values : List Value}
    (kept : List.Forall₂ (fun item value => value.kind = item.kind)
      ((storedStack frame.stack).drop count) values) :
    Performs classes
      (layout.saveStack (frame.stack.drop count) (frame.stack.length - count))
      ⟨locals, values ++ stack, world⟩
      ⟨locals, stack, { world with
        heap := world.heap.fill refs (((storedStack frame.stack).drop count).zip values) }⟩ := by
  have placed : Placed layout.stackMax.get (presentKinds frame.stack)
      ((storedStack frame.stack).drop count) :=
    fun item member => houses.stackPlaced item (List.mem_of_mem_drop member)
  unfold SlotLayout.saveStack
  rw [storedValues_drop, houses.storedValues_eq, ← List.map_drop, List.take_of_length_le (by
    rw [List.length_map, List.length_drop, houses.storedStack_length])]
  exact saveEntries pointing spans placed kept

/-- Arrays for the operand stack are made and take the topmost entries. -/
theorem beginSaving (houses : layout.Houses own frame)
    (length : locals.length = layout.maxLocals.toNat) (roomy : world.heap.Roomy 5) {count : Nat}
    {values : List Value}
    (kept : List.Forall₂ (fun item value => value.kind = item.kind)
      ((storedStack frame.stack).take count) values) :
    ∃ refs locals' heap,
      Performs classes (layout.allocateStack frame.stack ++ layout.saveStack frame.stack count)
        ⟨locals, values ++ stack, world⟩ ⟨locals', stack, { world with heap }⟩ ∧
      layout.Keeps own (Set.range Role.stackArray) locals locals' ∧
      Pointing layout.stackArray refs (presentKinds frame.stack) locals' ∧
      world.heap.Grows heap 5 ∧ world.heap.HoldsTop heap refs layout frame count values := by
  have few := presentKinds_length frame.stack
  have injective : Function.Injective Role.stackArray := fun _ _ same => by cases same; rfl
  obtain ⟨refs, locals', heap, allocates, keeps, pointing, allots⟩ :=
    @allocate classes locals (values ++ stack) world layout own houses.spread .stackArray
      layout.stackArray layout.stackMax.get (presentKinds frame.stack) (presentKinds_nodup _)
      injective houses.stackArrays length (fun kind _ => (houses.stackMax kind).2)
      (roomy.mono few)
  have saves := @saveTop classes locals' stack { world with heap } layout own frame refs houses
    pointing allots.spans count values kept
  refine ⟨refs, locals', _, allocates.append saves, keeps.mono ?_, pointing, ?_, ?_⟩
  · rintro role ⟨kind, _, rfl⟩
    exact ⟨kind, rfl⟩
  · apply (allots.grows.mono few).fill
    intro item member
    exact allots.new _ (houses.stackPlaced _ (List.mem_of_mem_take (List.of_mem_zip member).1)).1
  · refine ⟨allots.spans.fill, allots.injective, allots.new, ?_⟩
    apply Heap.fill_holdsAll allots.spans kept.length_eq _ allots.injective
    · exact (storedStack_apart frame.stack).sublist (List.take_sublist _ _)
    · intro item member
      have placed := houses.stackPlaced item (List.mem_of_mem_take member)
      exact ⟨placed.1, placed.2.1⟩

end Performs

/-- Once the lower entries have been written too, the arrays hold the whole operand stack. -/
theorem Heap.HoldsTop.complete {base heap : Heap} {refs : Kind → ObjectRef} {layout : SlotLayout}
    {own : Nat} {frame : Frame} {count : Nat} {top lower : List Value}
    (houses : layout.Houses own frame) (holds : base.HoldsTop heap refs layout frame count top)
    (same : ((storedStack frame.stack).drop count).length = lower.length) :
    (heap.fill refs (((storedStack frame.stack).drop count).zip lower)).HoldsAll refs
      (storedStack frame.stack) (top ++ lower) := by
  have apart : ((storedStack frame.stack).take count ++
      (storedStack frame.stack).drop count).Pairwise StoredValue.Apart := by
    rw [List.take_append_drop]
    exact storedStack_apart frame.stack
  obtain ⟨_, below, across⟩ := List.pairwise_append.mp apart
  have placed : ∀ item ∈ storedStack frame.stack, item.kind ∈ presentKinds frame.stack ∧
      item.index < layout.stackMax.get item.kind := by
    intro item member
    exact ⟨(houses.stackPlaced item member).1, (houses.stackPlaced item member).2.1⟩
  have early : (heap.fill refs (((storedStack frame.stack).drop count).zip lower)).HoldsAll refs
      ((storedStack frame.stack).take count) top := by
    apply holds.holds.fill
    intro item member other member'
    have listed := (List.of_mem_zip member').1
    rcases across item member other.1 listed with kinds | places
    · left
      intro equal
      exact kinds (holds.injective _ (placed item (List.mem_of_mem_take member)).1 _
        (placed other.1 (List.mem_of_mem_drop listed)).1 equal)
    · exact Or.inr places
  have late : (heap.fill refs (((storedStack frame.stack).drop count).zip lower)).HoldsAll refs
      ((storedStack frame.stack).drop count) lower :=
    Heap.fill_holdsAll holds.spans same
      (fun item member => placed item (List.mem_of_mem_drop member)) holds.injective below
  have joined : (heap.fill refs (((storedStack frame.stack).drop count).zip lower)).HoldsAll refs
      ((storedStack frame.stack).take count ++ (storedStack frame.stack).drop count)
      (top ++ lower) :=
    List.rel_append early late
  rwa [List.take_append_drop] at joined

theorem place_lt (kind : Kind) : place kind < Kind.all.length := by
  cases kind <;> decide

theorem place_injective : Function.Injective place := by
  intro first second same
  revert same
  cases first <;> cases second <;> decide

/-- The elements of a container in use, with the variables and objects of their arrays. -/
def containerCells (layout : SlotLayout) (frame : Frame) (locals stack : Kind → ObjectRef) :
    List (Nat × Variable × ObjectRef) :=
  (presentKinds frame.locals).map (fun kind => (place kind, layout.localsArray kind, locals kind)) ++
    (presentKinds frame.stack).map fun kind =>
      (place kind + Kind.all.length, layout.stackArray kind, stack kind)

theorem containerCells_distinct (layout : SlotLayout) (frame : Frame)
    (locals stack : Kind → ObjectRef) :
    (containerCells layout frame locals stack).Pairwise fun cell other => cell.1 ≠ other.1 := by
  unfold containerCells
  rw [List.pairwise_append, List.pairwise_map, List.pairwise_map]
  refine ⟨?_, ?_, ?_⟩
  · exact (presentKinds_nodup frame.locals).imp fun differ same => differ (place_injective same)
  · apply (presentKinds_nodup frame.stack).imp
    intro kind other differ same
    exact differ (place_injective (Nat.add_right_cancel same))
  · intro cell member other member'
    obtain ⟨kind, _, rfl⟩ := List.mem_map.mp member
    obtain ⟨kind', _, rfl⟩ := List.mem_map.mp member'
    have low := place_lt kind
    dsimp only
    omega

namespace Performs

open Does

variable {classes : ClassTable} {locals stack values : List Value} {world : World}
  {layout : SlotLayout} {own : Nat} {frame : Frame} {refs : Kind → ObjectRef}

/-- The locals go into new arrays of theirs. -/
theorem saveLocals (houses : layout.Houses own frame)
    (length : locals.length = layout.maxLocals.toNat) (roomy : world.heap.Roomy 5)
    (kept : ∀ item ∈ storedLocals frame.locals,
      locals[item.2.toNat]? = some (slotContent locals item.2) ∧
        (slotContent locals item.2).kind = item.1.kind) :
    ∃ arrays locals' heap,
      Performs classes (layout.allocateLocals frame.locals ++ layout.saveLocals frame.locals)
        ⟨locals, stack, world⟩ ⟨locals', stack, { world with heap }⟩ ∧
      layout.Keeps own (Set.range Role.localsArray) locals locals' ∧
      Pointing layout.localsArray arrays (presentKinds frame.locals) locals' ∧
      world.heap.Grows heap 5 ∧
      (∀ kind ∈ presentKinds frame.locals, ∀ held, world.heap.get (arrays kind) ≠ .ok held) ∧
      heap.Spans arrays layout.localsMax.get (presentKinds frame.locals) ∧
      ∀ item ∈ storedLocals frame.locals,
        heap.Holds (arrays item.1.kind) item.1.index (slotContent locals item.2) := by
  have few := presentKinds_length frame.locals
  have injective : Function.Injective Role.localsArray := fun _ _ same => by cases same; rfl
  obtain ⟨arrays, locals', heap, allocates, keeps, pointing, allots⟩ :=
    @allocate classes locals stack world layout own houses.spread .localsArray layout.localsArray
      layout.localsMax.get (presentKinds frame.locals) (presentKinds_nodup _) injective
      houses.localsArrays length (fun kind _ => (houses.localsMax kind).2) (roomy.mono few)
  -- Arrays do not get into the way of the slots to be saved.
  have kept' : ∀ item ∈ storedLocals frame.locals,
      locals'[item.2.toNat]? = some (slotContent locals item.2) ∧
        (slotContent locals item.2).kind = item.1.kind := by
    intro item member
    have short : frame.locals.length ≤ 65535 := houses.slots.trans_le houses.small
    obtain ⟨here, _⟩ := mem_storedLocals short member
    have inside : item.2.toNat < own := houses.slots ▸ (List.getElem?_eq_some_iff.mp here).1
    rw [keeps.own _ inside]
    exact kept item member
  have saves := @saveSlots classes locals' stack { world with heap } layout.localsArray arrays
    layout.localsMax.get (presentKinds frame.locals) (storedLocals frame.locals)
    (slotContent locals) pointing allots.spans houses.localsPlaced kept'
  have listed : ∀ item ∈ (storedLocals frame.locals).map fun item =>
      (item.1, slotContent locals item.2),
      item.1 ∈ (storedLocals frame.locals).map Prod.fst := by
    intro item member
    obtain ⟨entry, there, rfl⟩ := List.mem_map.mp member
    exact List.mem_map_of_mem there
  refine ⟨arrays, locals', _, allocates.append saves, keeps.mono ?_, pointing, ?_, allots.new,
    allots.spans.fill, ?_⟩
  · rintro role ⟨kind, _, rfl⟩
    exact ⟨kind, rfl⟩
  · apply (allots.grows.mono few).fill
    intro item member
    exact allots.new _ (houses.localsPlaced _ (listed item member)).1
  · have scattered : Heap.Scattered ((storedLocals frame.locals).map fun item =>
        (item.1, slotContent locals item.2)) :=
      List.pairwise_map.mpr (List.pairwise_map.mp (storedLocals_apart frame.locals))
    have written := Heap.fill_holds allots.spans (fun item member =>
      ⟨(houses.localsPlaced _ (listed item member)).1,
        (houses.localsPlaced _ (listed item member)).2.1⟩) allots.injective scattered
    intro item member
    exact written _ (List.mem_map_of_mem member)

/-- All arrays go into a new container. -/
theorem pack (houses : layout.Houses own frame) (length : locals.length = layout.maxLocals.toNat)
    {arrays : Kind → ObjectRef} (roomy : world.heap.Roomy 1)
    (localsPointing : Pointing layout.localsArray arrays (presentKinds frame.locals) locals)
    (stackPointing : Pointing layout.stackArray refs (presentKinds frame.stack) locals) :
    ∃ container heap,
      Performs classes (layout.pack frame.locals frame.stack) ⟨locals, stack, world⟩
        ⟨locals.set layout.container.slot.toNat (.ref container), stack, { world with heap }⟩ ∧
      world.heap.Grows heap 1 ∧ (∀ held, world.heap.get container ≠ .ok held) ∧
      ∀ cell ∈ containerCells layout frame arrays refs,
        heap.Holds container cell.1 (.ref cell.2.2) := by
  have found : layout.varFor? .container = some layout.container := rfl
  have inside : layout.container.slot.toNat < locals.length :=
    length ▸ houses.spread.inside _ _ found
  let made := world.heap.alloc (initialArray (fun _ => 10) .ref)
  let locals' := locals.set layout.container.slot.toNat (.ref made.1)
  have new : ∀ held, world.heap.get made.1 ≠ .ok held :=
    fun held found => Heap.alloc_new roomy found rfl
  have spans : made.2.Spans (fun _ => made.1) (fun _ => 10) [.ref] := by
    intro kind member
    rw [List.mem_singleton.mp member]
    exact ⟨_, Heap.get_alloc roomy, by simp⟩
  have fresh : Performs classes
      [.intConst SlotLayout.containerSize, .newArray (.object Names.object), layout.container.store]
      ⟨locals, stack, world⟩ ⟨locals', stack, { world with heap := made.2 }⟩ := by
    apply cons (intConst _)
    apply cons (newArrayOf (show (10 : Nat) < 2 ^ 31 by decide))
    exact single (store inside houses.container.symm)
  -- The variables of the arrays are others than that of the container.
  have ready : ∀ cell ∈ containerCells layout frame arrays refs,
      cell.1 < 10 ∧ cell.1 < 2 ^ 31 ∧ cell.2.1.kind = .ref ∧
        locals'[cell.2.1.slot.toNat]? = some (.ref cell.2.2) := by
    intro cell member
    unfold containerCells at member
    rcases List.mem_append.mp member with first | second
    · obtain ⟨kind, listed, rfl⟩ := List.mem_map.mp first
      obtain ⟨var, reference⟩ := houses.localsArrays kind listed
      have apart := houses.spread.apart _ _ _ _ found var (by simp)
      have low : place kind < 5 := place_lt kind
      refine ⟨by dsimp only; omega, by dsimp only; omega, reference, ?_⟩
      rw [List.getElem?_set_ne apart]
      exact (localsPointing kind listed).2
    · obtain ⟨kind, listed, rfl⟩ := List.mem_map.mp second
      obtain ⟨var, reference⟩ := houses.stackArrays kind listed
      have apart := houses.spread.apart _ _ _ _ found var (by simp)
      have low : place kind < 5 := place_lt kind
      have five : Kind.all.length = 5 := rfl
      refine ⟨by dsimp only; omega, by dsimp only; omega, reference, ?_⟩
      rw [List.getElem?_set_ne apart]
      exact (stackPointing kind listed).2
  have held : locals'[layout.container.slot.toNat]? = some (.ref made.1) :=
    List.getElem?_set_self inside
  have packs := @packCells classes locals' stack { world with heap := made.2 } layout.container
    made.1 10 (containerCells layout frame arrays refs) houses.container held spans ready
  have code : layout.pack frame.locals frame.stack =
      [.intConst SlotLayout.containerSize, .newArray (.object Names.object),
        layout.container.store] ++
      (containerCells layout frame arrays refs).flatMap fun cell =>
        [layout.container.load, .intConst (Int32.ofNat cell.1), cell.2.1.load,
          .arrayStore .ref] := by
    simp [SlotLayout.pack, SlotLayout.elements, containerCells, List.flatMap_append,
      List.flatMap_map]
  refine ⟨made.1, _, code ▸ fresh.append packs, ?_, new, ?_⟩
  · exact (Heap.Grows.alloc _).fill fun item _ => new
  · have scattered : Heap.Scattered ((containerCells layout frame arrays refs).map
        fun cell => (⟨.null, .ref, cell.1⟩, .ref cell.2.2)) := by
      apply List.pairwise_map.mpr
      exact (containerCells_distinct layout frame arrays refs).imp fun differ => Or.inr differ
    have written := Heap.fill_holds spans (by
      intro item member
      obtain ⟨cell, there, rfl⟩ := List.mem_map.mp member
      exact ⟨List.mem_singleton_self _, (ready cell there).1⟩) (by simp) scattered
    intro cell member
    exact written _ (List.mem_map_of_mem member)

/-- The locals are saved and the whole frame is packed. -/
theorem finishSaving (houses : layout.Houses own frame)
    (length : locals.length = layout.maxLocals.toNat) (roomy : world.heap.Roomy 6)
    (kept : ∀ item ∈ storedLocals frame.locals,
      locals[item.2.toNat]? = some (slotContent locals item.2) ∧
        (slotContent locals item.2).kind = item.1.kind)
    (pointing : Pointing layout.stackArray refs (presentKinds frame.stack) locals)
    (spans : world.heap.Spans refs layout.stackMax.get (presentKinds frame.stack))
    (holds : world.heap.HoldsAll refs (storedStack frame.stack) values) :
    ∃ packing locals' heap,
      Performs classes (layout.allocateLocals frame.locals ++ layout.saveLocals frame.locals ++
          layout.pack frame.locals frame.stack)
        ⟨locals, stack, world⟩ ⟨locals', stack, { world with heap }⟩ ∧
      layout.Keeps own (insert .container (Set.range Role.localsArray)) locals locals' ∧
      locals'[layout.container.slot.toNat]? = some (.ref packing.container) ∧
      world.heap.Grows heap 6 ∧ packing.stack = refs ∧
      (∀ object ∈ packing.container :: (presentKinds frame.locals).map packing.locals,
        ∀ held, world.heap.get object ≠ .ok held) ∧
      heap.Packs packing layout frame (slotContent locals) values := by
  obtain ⟨arrays, locals', heap, saves, keeps, localsPointing, grows, new, localsSpans, written⟩ :=
    @saveLocals classes locals stack world layout own frame houses length
      (roomy.mono (by decide)) kept
  have length' : locals'.length = layout.maxLocals.toNat := keeps.length.trans length
  have stackPointing : Pointing layout.stackArray refs (presentKinds frame.stack) locals' := by
    intro kind listed
    obtain ⟨var, _⟩ := houses.stackArrays kind listed
    rw [keeps.others _ _ var (by simp)]
    exact pointing kind listed
  obtain ⟨container, heap', packs, grows', new', cells⟩ :=
    @pack classes locals' stack { world with heap } layout own frame refs houses length' arrays
      (grows.roomy roomy) localsPointing stackPointing
  have grown : world.heap.Grows heap' 6 := grows.trans grows'
  refine ⟨⟨container, arrays, refs⟩, _, heap', saves.append packs, ?_, ?_, grown, rfl, ?_, ?_⟩
  · apply (keeps.mono (Set.subset_insert _ _)).trans
    exact .set houses.spread rfl (Set.mem_insert _ _) _
  · exact List.getElem?_set_self (length' ▸ houses.spread.inside .container _ rfl)
  · intro object member held found
    rcases List.mem_cons.mp member with rfl | listed
    · exact new' held (grows.keeps _ _ found)
    · obtain ⟨kind, there, rfl⟩ := List.mem_map.mp listed
      exact new kind there held found
  · refine ⟨?_, ?_, localsSpans.later grows'.keeps, spans.later grown.keeps, ?_,
      holds.later grown.keeps⟩
    · intro kind listed
      apply cells (place kind, layout.localsArray kind, arrays kind)
      exact List.mem_append_left _ (List.mem_map_of_mem listed)
    · intro kind listed
      apply cells (place kind + Kind.all.length, layout.stackArray kind, refs kind)
      exact List.mem_append_right _ (List.mem_map_of_mem listed)
    · exact fun item member => (written item member).later grows'.keeps

end Performs

end StackCoroutine
