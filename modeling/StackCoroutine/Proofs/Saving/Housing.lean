import StackCoroutine.Proofs.Saving.Frames

/-!
The room that a layout has for the frames it is planned for. The arrays of a category are as large as
the frame with the most values needs them. A frame may leave out slots of the method: with those
added, uninitialized, the same code moves its values.
-/

namespace StackCoroutine

open SlotLayout (presentKinds)

/-- The frame with all slots of the method, those it leaves out uninitialized. -/
def Frame.padded (frame : Frame) (own : Nat) : Frame :=
  { frame with
    locals := frame.locals ++ List.replicate (own - frame.locals.length) .uninitialized }

namespace Frame

variable (frame : Frame) (own : Nat)

theorem padded_self : frame.padded frame.locals.length = frame := by
  simp [padded]

theorem padded_length (short : frame.locals.length ≤ own) :
    (frame.padded own).locals.length = own := by
  simp only [padded, List.length_append, List.length_replicate]
  omega

theorem countKind_padded (kind : Kind) :
    countKind kind (frame.padded own).locals = countKind kind frame.locals := by
  simp [countKind, padded, List.countP_replicate, FrameValue.hasKind, FrameValue.kind]

theorem presentKinds_padded : presentKinds (frame.padded own).locals = presentKinds frame.locals := by
  unfold presentKinds
  simp only [countKind_padded]

theorem storedLocals_padded : storedLocals (frame.padded own).locals = storedLocals frame.locals := by
  -- A slot without a value at the end is not stored and moves no other.
  have longer : ∀ values : List FrameValue,
      storedLocals (values ++ [.uninitialized]) = storedLocals values := by
    intro values
    simp [storedLocals, storedValues, FrameValue.kind, List.zipIdx_append]
  simp only [padded]
  induction own - frame.locals.length with
  | zero => simp
  | succ count ih => rw [List.replicate_succ', ← List.append_assoc, longer, ih]

end Frame

/-- Frames of a method with so many slots, on whose stacks array indices can tell the entries apart. -/
def SlotRequest.Bounded (request : SlotRequest) : Prop :=
  ∀ frame ∈ request.frames, frame.locals.length ≤ request.maxLocals.toNat ∧
    frame.stack.length < 2 ^ 31

namespace SlotLayout

/-- The maximum of some counts is bounded as they are. -/
theorem most_le {lists : List (List FrameValue)} {bound : Nat}
    (bounded : ∀ values ∈ lists, values.length ≤ bound) (kind : Kind) :
    (most lists).get kind ≤ bound := by
  have counted : (most lists).get kind = (lists.map (countKind kind)).foldl max 0 := by
    cases kind <;> rfl
  rw [counted]
  apply List.foldlRecOn (motive := (· ≤ bound))
  · exact Nat.zero_le _
  · intro most below count member
    obtain ⟨values, listed, rfl⟩ := List.mem_map.mp member
    exact Nat.max_le.mpr ⟨below, List.countP_le_length.trans (bounded values listed)⟩

variable {request : SlotRequest} {layout : SlotLayout} {frame : Frame}

/-- A layout has room for each of the frames it is planned for. -/
theorem ofRequest?_houses (planned : ofRequest? request = some layout)
    (bounded : request.Bounded) (asked : frame ∈ request.frames)
    (entries : ∃ kinds : List Kind, frame.stack.map FrameValue.kind = kinds.map some) :
    layout.Houses request.maxLocals.toNat (frame.padded request.maxLocals.toNat) := by
  have serves := ofRequest?_serves planned
  have small : request.maxLocals.toNat ≤ 65535 := by
    have bound := request.maxLocals.toNat_lt
    omega
  have kinds := frame.presentKinds_padded request.maxLocals.toNat
  exact {
    spread := ofRequest?_spread planned
    room := serves.room
    container := serves.container
    localsArrays := fun kind present =>
      ⟨serves.localsStorage _ asked kind (kinds ▸ present),
        (serves.locals _ asked kind (kinds ▸ present)).2⟩
    stackArrays := fun kind present =>
      ⟨serves.stackStorage _ asked kind present, (serves.stack _ asked kind present).2⟩
    localsMax := by
      intro kind
      rw [serves.localsMax, Frame.countKind_padded]
      refine ⟨countKind_le_most (List.mem_map_of_mem asked) kind, ?_⟩
      have low := @most_le (request.frames.map Frame.locals) 65535 (by
        intro values listed
        obtain ⟨other, there, rfl⟩ := List.mem_map.mp listed
        exact (bounded other there).1.trans small) kind
      exact Nat.lt_of_le_of_lt low (by decide)
    stackMax := by
      intro kind
      rw [serves.stackMax]
      refine ⟨countKind_le_most (List.mem_map_of_mem (f := Frame.stack) asked) kind, ?_⟩
      have low := @most_le (request.frames.map Frame.stack) (2 ^ 31 - 1) (by
        intro values listed
        obtain ⟨other, there, rfl⟩ := List.mem_map.mp listed
        exact Nat.le_sub_one_of_lt (bounded other there).2) kind
      exact Nat.lt_of_le_of_lt low (by decide)
    slots := frame.padded_length _ (bounded frame asked).1
    small
    entries
    height := (bounded frame asked).2 }

end SlotLayout

end StackCoroutine
