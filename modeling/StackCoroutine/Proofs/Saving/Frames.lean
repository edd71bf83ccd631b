import StackCoroutine.Proofs.Saving.Packing
import StackCoroutine.Proofs.Saving.Places

/-!
A whole frame in its arrays. The saving code brings every value of the slots and of the operand stack
to its place in an array and all arrays into one container; from a container that holds a frame the
restoring code makes the frame again.
-/

namespace StackCoroutine

open SlotLayout (presentKinds place)

/-- A layout has room for a frame. -/
structure SlotLayout.Houses (layout : SlotLayout) (own : Nat) (frame : Frame) : Prop where
  spread : layout.Spread own
  room : own ≤ layout.maxLocals.toNat
  container : layout.container.kind = .ref
  localsArrays : layout.Assigns .localsArray layout.localsArray (presentKinds frame.locals)
  stackArrays : layout.Assigns .stackArray layout.stackArray (presentKinds frame.stack)
  localsMax : ∀ kind, countKind kind frame.locals ≤ layout.localsMax.get kind ∧
    layout.localsMax.get kind < 2 ^ 31
  stackMax : ∀ kind, countKind kind frame.stack ≤ layout.stackMax.get kind ∧
    layout.stackMax.get kind < 2 ^ 31
  slots : frame.locals.length = own
  small : own ≤ 65535
  /-- Every entry of the stack has a category. -/
  entries : ∃ kinds : List Kind, frame.stack.map FrameValue.kind = kinds.map some
  height : frame.stack.length < 2 ^ 31

namespace SlotLayout.Houses

variable {layout : SlotLayout} {own : Nat} {frame : Frame}

theorem stackPlaced (houses : layout.Houses own frame) :
    StackCoroutine.Placed layout.stackMax.get (presentKinds frame.stack)
      (storedStack frame.stack) :=
  storedStack_placed (fun kind => (houses.stackMax kind).1) houses.height

theorem localsPlaced (houses : layout.Houses own frame) :
    StackCoroutine.Placed layout.localsMax.get (presentKinds frame.locals)
      ((storedLocals frame.locals).map Prod.fst) :=
  storedLocals_placed (fun kind => (houses.localsMax kind).1)
    (by have small := houses.small; have slots := houses.slots; omega)

/-- The topmost entries and those below them as stored values. -/
theorem storedValues_eq (houses : layout.Houses own frame) :
    storedValues frame.stack = (storedStack frame.stack).map some := by
  obtain ⟨kinds, useful⟩ := houses.entries
  exact storedStack_map useful

theorem storedStack_length (houses : layout.Houses own frame) :
    (storedStack frame.stack).length = frame.stack.length := by
  have same := congrArg List.length houses.storedValues_eq
  rw [storedValues_length, List.length_map] at same
  exact same.symm

theorem take_storedStack (houses : layout.Houses own frame) :
    (storedStack frame.stack).take frame.stack.length = storedStack frame.stack :=
  List.take_of_length_le (Nat.le_of_eq houses.storedStack_length)

end SlotLayout.Houses

/-- The objects in which a frame is saved. -/
structure Packing where
  container : ObjectRef
  locals : Kind → ObjectRef
  stack : Kind → ObjectRef

namespace Packing

/-- All objects that a frame needs. -/
def objects (packing : Packing) (frame : Frame) : List ObjectRef :=
  packing.container :: (presentKinds frame.locals).map packing.locals ++
    (presentKinds frame.stack).map packing.stack

end Packing

/-- Some objects are as they were. -/
def Heap.Retains (objects : List ObjectRef) (heap later : Heap) : Prop :=
  ∀ object ∈ objects, later.get object = heap.get object

namespace Heap

variable {heap after : Heap} {array : ObjectRef} {number : Nat} {value : Value}
  {refs : Kind → ObjectRef} {sizes : Kind → Nat} {kinds : List Kind}

theorem Holds.later (holds : heap.Holds array number value) (grows : heap.Extends after) :
    after.Holds array number value := by
  obtain ⟨element, values, found, here⟩ := holds
  exact ⟨element, values, grows _ _ found, here⟩

theorem HoldsAll.later {stored : List StoredValue} {values : List Value}
    (holds : heap.HoldsAll refs stored values) (grows : heap.Extends after) :
    after.HoldsAll refs stored values :=
  List.Forall₂.imp (fun _ _ here => here.later grows) holds

theorem Spans.later (spans : heap.Spans refs sizes kinds) (grows : heap.Extends after) :
    after.Spans refs sizes kinds := by
  intro kind member
  obtain ⟨values, found, size⟩ := spans kind member
  exact ⟨values, grows _ _ found, size⟩

theorem Spans.of_get (spans : heap.Spans refs sizes kinds)
    (same : ∀ kind ∈ kinds, after.get (refs kind) = heap.get (refs kind)) :
    after.Spans refs sizes kinds := by
  intro kind member
  obtain ⟨values, found, size⟩ := spans kind member
  exact ⟨values, (same kind member).trans found, size⟩

/-- The container and its arrays hold the values of a frame. -/
structure Packs (heap : Heap) (packing : Packing) (layout : SlotLayout) (frame : Frame)
    (content : UInt16 → Value) (stack : List Value) : Prop where
  localsPacked : ∀ kind ∈ presentKinds frame.locals,
    heap.Holds packing.container (place kind) (.ref (packing.locals kind))
  stackPacked : ∀ kind ∈ presentKinds frame.stack,
    heap.Holds packing.container (place kind + Kind.all.length) (.ref (packing.stack kind))
  localsArrays : heap.Spans packing.locals layout.localsMax.get (presentKinds frame.locals)
  stackArrays : heap.Spans packing.stack layout.stackMax.get (presentKinds frame.stack)
  locals : ∀ item ∈ storedLocals frame.locals,
    heap.Holds (packing.locals item.1.kind) item.1.index (content item.2)
  stack : heap.HoldsAll packing.stack (storedStack frame.stack) stack

theorem Packs.grow {packing : Packing} {layout : SlotLayout} {frame : Frame}
    {content : UInt16 → Value} {stack : List Value}
    (packs : heap.Packs packing layout frame content stack) (grows : heap.Extends after) :
    after.Packs packing layout frame content stack where
  localsPacked kind member := (packs.localsPacked kind member).later grows
  stackPacked kind member := (packs.stackPacked kind member).later grows
  localsArrays := packs.localsArrays.later grows
  stackArrays := packs.stackArrays.later grows
  locals item member := (packs.locals item member).later grows
  stack := packs.stack.later grows

theorem Packs.later {packing : Packing} {layout : SlotLayout} {frame : Frame}
    {content : UInt16 → Value} {stack : List Value}
    (packs : heap.Packs packing layout frame content stack) (short : frame.locals.length ≤ 65535)
    (retains : Retains (packing.objects frame) heap after) :
    after.Packs packing layout frame content stack := by
  have container : after.get packing.container = heap.get packing.container :=
    retains _ List.mem_cons_self
  have locals : ∀ kind ∈ presentKinds frame.locals,
      after.get (packing.locals kind) = heap.get (packing.locals kind) := by
    intro kind member
    apply retains
    exact List.mem_cons_of_mem _ (List.mem_append_left _ (List.mem_map_of_mem member))
  have entries : ∀ kind ∈ presentKinds frame.stack,
      after.get (packing.stack kind) = heap.get (packing.stack kind) := by
    intro kind member
    apply retains
    exact List.mem_cons_of_mem _ (List.mem_append_right _ (List.mem_map_of_mem member))
  refine ⟨?_, ?_, packs.localsArrays.of_get locals, packs.stackArrays.of_get entries, ?_, ?_⟩
  · exact fun kind member => (packs.localsPacked kind member).of_get container
  · exact fun kind member => (packs.stackPacked kind member).of_get container
  · intro item member
    obtain ⟨here, has⟩ := mem_storedLocals short member
    have listed := mem_presentKinds (List.mem_of_getElem? here) has
    exact (packs.locals item member).of_get (locals _ listed)
  · have members : ∀ item ∈ storedStack frame.stack, item.kind ∈ presentKinds frame.stack := by
      intro item member
      obtain ⟨inside, has⟩ := mem_storedValues (mem_storedStack member)
      exact mem_presentKinds inside has
    exact packs.stack.of_get fun item member => entries _ (members item member)

end Heap

end StackCoroutine
