import StackCoroutine.Proofs.Saving.Housing
import StackCoroutine.Proofs.Saving.Routines

/-!
Saving a frame and loading it again loses nothing. A whole frame comes back from its container in any
invocation that has it, whatever has happened to the rest of the heap; and of an operand stack that
has been saved down to some height, every window above that height can be pushed again.
-/

namespace StackCoroutine

open SlotLayout (presentKinds)

/-- So many entries of a stack that is listed from the top, from the one with so many others below it
upward. -/
def window {α : Type} (entries : List α) (offset count : Nat) : List α :=
  (entries.drop (entries.length - offset - count)).take count

section

variable {α β : Type} (entries : List α) {keep offset count : Nat}

theorem window_all : window entries 0 entries.length = entries := by
  simp [window]

theorem window_map (f : α → β) :
    window (entries.map f) offset count = (window entries offset count).map f := by
  simp [window, List.map_take, List.map_drop]

/-- A window does not reach below its offset. -/
theorem window_take (kept : keep ≤ offset) (inside : offset + count ≤ entries.length) :
    ((entries.take (entries.length - keep)).drop (entries.length - offset - count)).take count =
      window entries offset count := by
  rw [window, List.drop_take, List.take_take, Nat.min_eq_left (by omega)]

end

namespace SlotLayout

variable (layout : SlotLayout)

/-- Moves the entries with at least so many others below them into their arrays. -/
def saveAbove (stack : List FrameValue) (keep : Nat) : Code :=
  layout.saveStack stack (stack.length - keep)

/-- Pushes the entries of a window. -/
def loadWindow (stack : List FrameValue) (offset count : Nat) : Code :=
  layout.pushAll (window (storedValues stack) offset count)

/-- Saves a frame: the operand stack, the locals, and then the container. -/
def saveFrame (frame : Frame) : Code :=
  layout.allocateStack frame.stack ++ layout.saveAbove frame.stack 0 ++
    (layout.allocateLocals frame.locals ++ layout.saveLocals frame.locals ++
      layout.pack frame.locals frame.stack)

/-- Loads a frame from its container. -/
def loadFrame (frame : Frame) : Code :=
  layout.unpack frame.locals frame.stack ++ layout.loadLocals frame.locals ++
    layout.loadWindow frame.stack 0 frame.stack.length

/-- The arguments of a call are the window above what lies below them. -/
theorem loadTop_eq_window {stack : List FrameValue} {count : Nat} (few : count ≤ stack.length) :
    layout.loadTop stack count = layout.loadWindow stack (stack.length - count) count := by
  have none_left : stack.length - (stack.length - count) - count = 0 := by omega
  rw [loadTop, loadWindow, window, storedValues_length, none_left, List.drop_zero]

theorem loadBelow_eq_window {stack : List FrameValue} {count : Nat} (few : count ≤ stack.length) :
    layout.loadBelow stack count = layout.loadWindow stack 0 (stack.length - count) := by
  have above : stack.length - 0 - (stack.length - count) = count := by omega
  rw [loadBelow, loadWindow, window, storedValues_length, above, List.take_of_length_le]
  rw [List.length_drop, storedValues_length]

end SlotLayout

/-- The slots that a frame states hold what they held when it was saved, and all other slots of the
method's own hold what they held before it was loaded. -/
structure Frame.Reinstates (frame : Frame) (own : Nat) (saved before after : List Value) : Prop where
  length : after.length = before.length
  stated : ∀ (slot : Nat) entry, frame.locals[slot]? = some entry → entry ≠ .uninitialized →
    after[slot]? = saved[slot]?
  others : ∀ slot < own, (∀ entry, frame.locals[slot]? = some entry → entry = .uninitialized) →
    after[slot]? = before[slot]?

variable {layout : SlotLayout} {own : Nat} {frame : Frame} {classes : ClassTable}
  {locals stack below : List Value} {world : World}

theorem Frame.Fits.padded {heap : Heap} (fits : frame.Fits classes heap locals stack)
    (room : own ≤ locals.length) : (frame.padded own).Fits classes heap locals stack where
  locals := by
    intro slot entry there
    by_cases stated : slot < frame.locals.length
    · rw [Frame.padded, List.getElem?_append_left stated] at there
      exact fits.locals slot entry there
    · rw [Frame.padded, List.getElem?_append_right (by omega), List.getElem?_replicate] at there
      split at there
      · cases there
        have inside : slot < locals.length := by omega
        exact ⟨locals[slot], List.getElem?_eq_getElem inside, trivial⟩
      · cases there
  stack := fits.stack

theorem FrameValue.kind_of_useful {value : FrameValue} (useful : value ≠ .uninitialized) :
    ∃ kind, value.kind = some kind := by
  cases value with
  | uninitialized => exact absurd rfl useful
  | _ => exact ⟨_, rfl⟩

namespace Reloads

/-- What has been loaded into the slots are the slots that the frame states. -/
theorem reinstates {loaded before middle after : List Value}
    (reloads : Reloads own (storedLocals frame.locals) (slotContent loaded) middle after)
    (kept : ∀ slot < own, middle[slot]? = before[slot]?) (same : middle.length = before.length)
    (short : frame.locals.length ≤ 65535) (room : frame.locals.length ≤ loaded.length) :
    frame.Reinstates own loaded before after where
  length := reloads.length.trans same
  stated := by
    intro slot entry there useful
    obtain ⟨kind, has⟩ := FrameValue.kind_of_useful useful
    obtain ⟨item, member, found⟩ := storedLocals_complete short
      (show (frame.locals.map FrameValue.kind)[slot]? = some (some kind) by simp [there, has])
    obtain ⟨place, _⟩ := Prod.mk.inj found
    have inside : slot < loaded.length :=
      (List.getElem?_eq_some_iff.mp there).1.trans_le room
    have loaded_item := reloads.loaded item member
    rw [slotContent, place, List.getElem?_eq_getElem inside, Option.getD_some] at loaded_item
    rw [loaded_item, List.getElem?_eq_getElem inside]
  others := by
    intro slot inside free
    rw [reloads.others slot, kept slot inside]
    intro item member same
    obtain ⟨there, has⟩ := mem_storedLocals short member
    have empty := free item.1.value (same ▸ there)
    rw [empty] at has
    cases has

end Reloads

namespace Performs

/-- A window comes back from where it is held. -/
theorem loadWindow {refs : Kind → ObjectRef} {values : List Value}
    (houses : layout.Houses own frame)
    (pointing : Pointing layout.stackArray refs (presentKinds frame.stack) locals)
    (same : values.length = frame.stack.length) {keep offset count : Nat} (kept : keep ≤ offset)
    (inside : offset + count ≤ frame.stack.length)
    (held : List.Forall₂ (fun item value => item.value.kind = some item.kind ∧
      world.heap.Holds (refs item.kind) item.index value ∧
      item.value.Fits classes world.heap value)
      ((storedStack frame.stack).take (frame.stack.length - keep))
      (values.take (frame.stack.length - keep))) :
    Performs classes (layout.loadWindow frame.stack offset count) ⟨locals, stack, world⟩
      ⟨locals, window values offset count ++ stack, world⟩ := by
  have stored : (storedStack frame.stack).length = frame.stack.length := houses.storedStack_length
  have windowed := List.forall₂_take count
    (List.forall₂_drop (frame.stack.length - offset - count) held)
  have entries := window_take (storedStack frame.stack) kept (stored ▸ inside)
  have contents := window_take values kept (same ▸ inside)
  rw [stored] at entries
  rw [same] at contents
  rw [entries, contents] at windowed
  have placed : Placed layout.stackMax.get (presentKinds frame.stack)
      (window (storedStack frame.stack) offset count) :=
    fun item member => houses.stackPlaced item
      (List.mem_of_mem_drop (List.mem_of_mem_take member))
  unfold SlotLayout.loadWindow
  rw [houses.storedValues_eq, window_map]
  exact pushEntries pointing placed windowed

/-- The stack is saved down to some height, from which its windows come back. -/
theorem saveAbove (houses : layout.Houses own frame)
    (length : locals.length = layout.maxLocals.toNat) (roomy : world.heap.Roomy 5)
    (fits : frame.Fits classes world.heap locals stack) (keep : Nat) :
    ∃ saved heap,
      Performs classes (layout.allocateStack frame.stack ++ layout.saveAbove frame.stack keep)
        ⟨locals, stack ++ below, world⟩
        ⟨saved, stack.drop (stack.length - keep) ++ below, { world with heap }⟩ ∧
      (∀ slot < own, saved[slot]? = locals[slot]?) ∧ world.heap.Grows heap 5 ∧
      ∀ offset count operands, keep ≤ offset → offset + count ≤ stack.length →
        Performs classes (layout.loadWindow frame.stack offset count)
          ⟨saved, operands, { world with heap }⟩
          ⟨saved, window stack offset count ++ operands, { world with heap }⟩ := by
  have same : stack.length = frame.stack.length := fits.stack.length_eq.symm
  have kinds := List.forall₂_take (frame.stack.length - keep) (fits.entryKinds houses)
  obtain ⟨refs, saved, heap, saves, keeps, pointing, grows, holds⟩ :=
    @beginSaving classes locals (stack.drop (frame.stack.length - keep) ++ below) world layout own
      frame houses length roomy _ _ kinds
  rw [← List.append_assoc, List.take_append_drop] at saves
  refine ⟨saved, heap, same ▸ saves, keeps.own, grows, ?_⟩
  intro offset count operands kept inside
  -- What fits keeps fitting, since no object changes its class.
  have stands := List.forall₂_take (frame.stack.length - keep)
    (((fits.accepts houses).later grows.keeps.keepsClasses).stack)
  exact loadWindow houses pointing same kept (same ▸ inside) (heldEntries holds.holds stands)

/-- The whole frame is saved in new objects. -/
theorem saveFrame (houses : layout.Houses own frame)
    (length : locals.length = layout.maxLocals.toNat) (roomy : world.heap.Roomy 11)
    (fits : frame.Fits classes world.heap locals stack) :
    ∃ packing saved heap,
      Performs classes (layout.saveFrame frame) ⟨locals, stack ++ below, world⟩
        ⟨saved, below, { world with heap }⟩ ∧
      (∀ slot < own, saved[slot]? = locals[slot]?) ∧
      saved[layout.container.slot.toNat]? = some (.ref packing.container) ∧
      world.heap.Grows heap 11 ∧
      (∀ object ∈ packing.objects frame, ∀ held, world.heap.get object ≠ .ok held) ∧
      heap.Packs packing layout frame (slotContent locals) stack := by
  have all := houses.take_storedStack
  have kinds : List.Forall₂ (fun item value => value.kind = item.kind)
      ((storedStack frame.stack).take frame.stack.length) stack :=
    all.symm ▸ fits.entryKinds houses
  obtain ⟨refs, middle, heap, begins, keeps, pointing, grows, holds⟩ :=
    @beginSaving classes locals below world layout own frame houses length
      (roomy.mono (by decide)) _ _ kinds
  have whole : heap.HoldsAll refs (storedStack frame.stack) stack := all ▸ holds.holds
  obtain ⟨packing, saved, heap', ends, keeps', held, grows', rfl, new, packs⟩ :=
    @finishSaving classes middle below stack { world with heap } layout own frame refs houses
      (keeps.length.trans length) (grows.roomy roomy) (fits.keptSlots houses keeps) pointing
      holds.spans whole
  refine ⟨packing, saved, heap', ?_, ?_, held, grows.trans grows', ?_, ?_⟩
  · rw [SlotLayout.saveFrame, SlotLayout.saveAbove, Nat.sub_zero]
    exact begins.append ends
  · intro slot inside
    exact (keeps'.own slot inside).trans (keeps.own slot inside)
  · intro object member content found
    rcases List.mem_append.mp member with first | second
    · exact new object first content (grows.keeps _ _ found)
    · obtain ⟨kind, listed, rfl⟩ := List.mem_map.mp second
      exact holds.new kind listed content found
  · exact packs.congr fun item member => (slotContent_keeps houses keeps item member).2

/-- A frame comes back from a container that holds it. -/
theorem loadFrame {packing : Packing} {saved : List Value} (houses : layout.Houses own frame)
    (length : locals.length = layout.maxLocals.toNat)
    (held : locals[layout.container.slot.toNat]? = some (.ref packing.container))
    (packs : world.heap.Packs packing layout frame (slotContent saved) stack)
    (accepts : frame.Accepts classes world.heap (slotContent saved) stack)
    (room : own ≤ saved.length) :
    ∃ restored, Performs classes (layout.loadFrame frame) ⟨locals, below, world⟩
        ⟨restored, stack ++ below, world⟩ ∧ frame.Reinstates own saved locals restored := by
  have short : frame.locals.length ≤ 65535 := houses.slots.trans_le houses.small
  obtain ⟨middle, unpacks, keeps, localsPointing, stackPointing⟩ :=
    @unpack classes locals below stack world layout own frame packing _ houses length held packs
  obtain ⟨restored, loads, reloads⟩ :=
    @loadLocals classes middle below stack world layout own frame packing _ houses
      (keeps.length.trans length) localsPointing packs accepts
  -- The array variables are above the slots that have been loaded.
  have stackPointing' : Pointing layout.stackArray packing.stack (presentKinds frame.stack)
      restored := by
    intro kind listed
    obtain ⟨var, _⟩ := houses.stackArrays kind listed
    rw [reloads.above houses.slots houses.small (houses.spread.above _ _ var)]
    exact stackPointing kind listed
  have same : stack.length = frame.stack.length := by
    rw [← accepts.stack.length_eq, houses.storedStack_length]
  have entries := heldEntries packs.stack accepts.stack
  have pushes := @loadWindow layout own frame classes restored below world packing.stack stack
    houses stackPointing' same 0 0 frame.stack.length (Nat.le_refl 0) (by omega)
    (List.forall₂_take _ entries)
  rw [← same, window_all, same] at pushes
  refine ⟨restored, (unpacks.append loads).append pushes, ?_⟩
  exact reloads.reinstates keeps.own keeps.length short (houses.slots.trans_le room)

end Performs

/-! The slots that a frame leaves out make no difference to the code or to what comes back. -/

theorem SlotLayout.saveFrame_padded :
    layout.saveFrame (frame.padded own) = layout.saveFrame frame := by
  have entries : (frame.padded own).stack = frame.stack := rfl
  simp only [saveFrame, allocateLocals, allocate, saveLocals, pack, elements, entries,
    Frame.presentKinds_padded, Frame.storedLocals_padded]

theorem SlotLayout.loadFrame_padded :
    layout.loadFrame (frame.padded own) = layout.loadFrame frame := by
  have entries : (frame.padded own).stack = frame.stack := rfl
  simp only [loadFrame, loadLocals, unpack, elements, entries, Frame.presentKinds_padded,
    Frame.storedLocals_padded]

theorem Packing.objects_padded (packing : Packing) :
    packing.objects (frame.padded own) = packing.objects frame := by
  have entries : (frame.padded own).stack = frame.stack := rfl
  simp only [objects, entries, Frame.presentKinds_padded]

theorem Frame.Reinstates.of_padded {saved before after : List Value}
    (reinstates : (frame.padded own).Reinstates own saved before after) :
    frame.Reinstates own saved before after where
  length := reinstates.length
  stated := by
    intro slot entry there
    apply reinstates.stated slot entry
    rw [padded, List.getElem?_append_left (List.getElem?_eq_some_iff.mp there).1]
    exact there
  others := by
    intro slot inside free
    apply reinstates.others slot inside
    intro entry there
    by_cases stated : slot < frame.locals.length
    · rw [padded, List.getElem?_append_left stated] at there
      exact free entry there
    · rw [padded, List.getElem?_append_right (by omega)] at there
      exact List.eq_of_mem_replicate (List.mem_of_getElem? there)

theorem kinds_of_useful {values : List FrameValue} (useful : .uninitialized ∉ values) :
    ∃ kinds : List Kind, values.map FrameValue.kind = kinds.map some := by
  induction values with
  | nil => exact ⟨[], rfl⟩
  | cons value rest ih =>
      obtain ⟨first, others⟩ := List.ne_and_not_mem_of_not_mem_cons useful
      obtain ⟨kind, has⟩ := FrameValue.kind_of_useful (Ne.symm first)
      obtain ⟨kinds, same⟩ := ih others
      exact ⟨kind :: kinds, by rw [List.map_cons, List.map_cons, has, same]⟩

/-- The saving code takes the operand stack away and leaves a container of new objects, from which the
loading code makes the frame again in every invocation that has the container, as long as nobody
changes those objects. -/
structure SlotLayout.Preserves (layout : SlotLayout) (classes : ClassTable) (own : Nat)
    (frame : Frame) (before after : Scene) (stack : List Value) (packing : Packing) : Prop where
  saves : Performs classes (layout.saveFrame frame)
    { before with stack := stack ++ before.stack } after
  slots : ∀ slot < own, after.locals[slot]? = before.locals[slot]?
  operands : after.stack = before.stack
  held : after.locals[layout.container.slot.toNat]? = some (.ref packing.container)
  world : after.world = { before.world with heap := after.world.heap }
  grows : before.world.heap.Grows after.world.heap 11
  new : ∀ object ∈ packing.objects frame, ∀ held, before.world.heap.get object ≠ .ok held
  loads : ∀ scene : Scene, scene.locals.length = layout.maxLocals.toNat →
    scene.locals[layout.container.slot.toNat]? = some (.ref packing.container) →
    after.world.heap.Retains (packing.objects frame) scene.world.heap →
    after.world.heap.KeepsClasses scene.world.heap →
    ∃ restored, Performs classes (layout.loadFrame frame) scene
        { scene with locals := restored, stack := stack ++ scene.stack } ∧
      frame.Reinstates own before.locals scene.locals restored

/-- The entries above a height go into arrays, those below stay, and each window above the height can
be pushed again. -/
structure SlotLayout.PreservesAbove (layout : SlotLayout) (classes : ClassTable) (own : Nat)
    (frame : Frame) (before after : Scene) (stack : List Value) (keep : Nat) : Prop where
  saves : Performs classes (layout.allocateStack frame.stack ++ layout.saveAbove frame.stack keep)
    { before with stack := stack ++ before.stack } after
  slots : ∀ slot < own, after.locals[slot]? = before.locals[slot]?
  operands : after.stack = stack.drop (stack.length - keep) ++ before.stack
  world : after.world = { before.world with heap := after.world.heap }
  grows : before.world.heap.Grows after.world.heap 5
  loads : ∀ offset count operands, keep ≤ offset → offset + count ≤ stack.length →
    Performs classes (layout.loadWindow frame.stack offset count)
      { after with stack := operands }
      { after with stack := window stack offset count ++ operands }

/-- The codec loses nothing of a frame that its layout is planned for: the frame comes back from its
container, and every window of an operand stack comes back once the stack has been saved below it. -/
theorem frame_survives {request : SlotRequest} (planned : SlotLayout.ofRequest? request = some layout)
    (bounded : request.Bounded) (asked : frame ∈ request.frames)
    (useful : .uninitialized ∉ frame.stack) {before : Scene}
    (length : before.locals.length = layout.maxLocals.toNat) (roomy : before.world.heap.Roomy 11)
    (fits : frame.Fits classes before.world.heap before.locals stack) :
    (∃ packing after,
      layout.Preserves classes request.maxLocals.toNat frame before after stack packing) ∧
    ∀ keep ≤ stack.length, ∃ after,
      layout.PreservesAbove classes request.maxLocals.toNat frame before after stack keep := by
  have houses := SlotLayout.ofRequest?_houses planned bounded asked (kinds_of_useful useful)
  have room : request.maxLocals.toNat ≤ before.locals.length := houses.room.trans_eq length.symm
  have fits' := fits.padded room
  constructor
  · obtain ⟨packing, saved, heap, saves, own, held, grows, new, packs⟩ :=
      @Performs.saveFrame layout _ _ classes before.locals stack before.stack before.world houses
        length roomy fits'
    rw [SlotLayout.saveFrame_padded] at saves
    rw [packing.objects_padded] at new
    refine ⟨packing, ⟨saved, before.stack, { before.world with heap }⟩, saves, own, rfl, held, rfl,
      grows, new, ?_⟩
    intro scene length' held' retains keeps
    have short : (frame.padded request.maxLocals.toNat).locals.length ≤ 65535 :=
      houses.slots.trans_le houses.small
    have accepts := ((fits'.accepts houses).later grows.keeps.keepsClasses).later keeps
    have packs' := packs.later short (packing.objects_padded ▸ retains)
    obtain ⟨restored, loads, reinstates⟩ :=
      @Performs.loadFrame layout _ _ classes scene.locals stack scene.stack scene.world packing _
        houses length' held' packs' accepts room
    rw [SlotLayout.loadFrame_padded] at loads
    exact ⟨restored, loads, reinstates.of_padded⟩
  · intro keep _
    obtain ⟨saved, heap, saves, own, grows, loads⟩ :=
      @Performs.saveAbove layout _ _ classes before.locals stack before.stack before.world houses
        length (roomy.mono (by decide)) fits' keep
    exact ⟨⟨saved, _, { before.world with heap }⟩, saves, own, rfl, rfl, grows, loads⟩

/-- A frame with wide values, nulls and a gap, which leaves out the last slot of its method. -/
def mixedFrame : Frame :=
  ⟨[.reference Names.text, .long, .uninitialized, .null, .int],
    [.double, .reference Names.text, .null, .int]⟩

/-- It shares its arrays with a frame of more ints. -/
def mixedRequest : SlotRequest where
  maxLocals := 6
  contextSlot := 0
  frames := [mixedFrame, ⟨[.int, .int, .float], [.int, .int]⟩]
  cachedKinds := []
  needsThrowable := false
  hasMonitors := false

def mixedScene : Scene where
  locals := [.ref ⟨0⟩, .long 7, .null, .null, .int 3] ++ List.replicate 10 .null
  stack := [.int 1]
  world := { (default : World) with heap := ⟨#[.text "hello"], []⟩ }

theorem frame_survives_mixed : ∃ layout, SlotLayout.ofRequest? mixedRequest = some layout ∧
    mixedRequest.Bounded ∧ mixedFrame ∈ mixedRequest.frames ∧
    .uninitialized ∉ mixedFrame.stack ∧ mixedScene.locals.length = layout.maxLocals.toNat ∧
    mixedScene.world.heap.Roomy 11 ∧
    mixedFrame.Fits .empty mixedScene.world.heap mixedScene.locals
      [.double .zero, .ref ⟨0⟩, .null, .int 5] ∧
    ∃ packing after, layout.Preserves .empty 6 mixedFrame mixedScene after
      [.double .zero, .ref ⟨0⟩, .null, .int 5] packing := by
  have planned : ∃ layout, SlotLayout.ofRequest? mixedRequest = some layout ∧
      mixedScene.locals.length = layout.maxLocals.toNat := ⟨_, rfl, rfl⟩
  obtain ⟨layout, planned, length⟩ := planned
  have bounded : mixedRequest.Bounded := by
    unfold SlotRequest.Bounded
    decide
  have text : (Value.ref ⟨0⟩).IsInstance .empty mixedScene.world.heap Names.text :=
    ⟨Names.text, rfl, Hierarchy.isAssignable_refl Names.text⟩
  have fits : mixedFrame.Fits .empty mixedScene.world.heap mixedScene.locals
      [.double .zero, .ref ⟨0⟩, .null, .int 5] := by
    constructor
    · intro slot entry there
      match slot with
      | 0 => exact ⟨_, rfl, Option.some.inj there ▸ Or.inr text⟩
      | 1 | 2 | 3 | 4 => exact ⟨_, rfl, Option.some.inj there ▸ by trivial⟩
      | slot + 5 => cases there
    · exact .cons rfl (.cons (Or.inr text) (.cons rfl (.cons rfl .nil)))
  have roomy : mixedScene.world.heap.Roomy 11 := by
    unfold Heap.Roomy
    decide
  exact ⟨layout, planned, bounded, List.mem_cons_self, by decide, length, roomy, fits,
    (frame_survives planned bounded List.mem_cons_self (by decide) length roomy fits).1⟩

end StackCoroutine
