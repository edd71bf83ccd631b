import StackCoroutine.Proofs.Frame.Joins
import StackCoroutine.Proofs.Supertypes

/-!
Frames as they stand under others: entry by entry, null under every reference and a reference under
those that take it; an uninitialized slot has everything under it. A merge has both of its frames
under it, whatever else is merged later.
-/

namespace StackCoroutine

namespace FrameValue

/-- Wherever the second value is asked for, the first one does. -/
inductive Under (hierarchy : Hierarchy) : FrameValue → FrameValue → Prop where
  | same (value : FrameValue) : Under hierarchy value value
  | null (name : String) : Under hierarchy .null (.reference name)
  | reference {low high : String} : hierarchy.isAssignable high low = true →
      Under hierarchy (.reference low) (.reference high)

/-- The same of local slots, where nothing is asked of an uninitialized one. -/
def LocalUnder (hierarchy : Hierarchy) (low high : FrameValue) : Prop :=
  high = .uninitialized ∨ low.Under hierarchy high

variable {hierarchy : Hierarchy}

theorem Under.trans (acyclic : hierarchy.Acyclic) (rooted : hierarchy.Rooted)
    {low middle high : FrameValue} (lower : low.Under hierarchy middle)
    (upper : middle.Under hierarchy high) : low.Under hierarchy high := by
  cases upper with
  | same => exact lower
  | null name =>
      cases lower
      exact .null name
  | reference takes =>
      cases lower with
      | same => exact .reference takes
      | null => exact .null _
      | reference takes' => exact .reference (Hierarchy.isAssignable_trans acyclic rooted takes takes')

theorem LocalUnder.trans (acyclic : hierarchy.Acyclic) (rooted : hierarchy.Rooted)
    {low middle high : FrameValue} (lower : low.LocalUnder hierarchy middle)
    (upper : middle.LocalUnder hierarchy high) : low.LocalUnder hierarchy high := by
  rcases upper with lost | upper
  · exact .inl lost
  rcases lower with rfl | lower
  · cases upper
    exact .inl rfl
  · exact .inr (lower.trans acyclic rooted upper)

theorem merge_left (acyclic : hierarchy.Acyclic) (a b : FrameValue) :
    a.LocalUnder hierarchy (merge hierarchy a b) := by
  unfold merge
  split
  · exact .inr (.same a)
  split
  · exact .inr (.null _)
  · exact .inr (.same _)
  · exact .inr (.reference (Hierarchy.commonSuper_left acyclic _ _))
  · exact .inl rfl

theorem merge_right (a b : FrameValue) : b.LocalUnder hierarchy (merge hierarchy a b) := by
  unfold merge
  split
  · rename_i same
    exact .inr (same ▸ .same a)
  split
  · exact .inr (.same _)
  · exact .inr (.null _)
  · exact .inr (.reference (Hierarchy.commonSuper_right hierarchy _ _))
  · exact .inl rfl

/-- What is usable on top is usable below. -/
theorem under_of_usable {low high : List FrameValue} (usable : .uninitialized ∉ high)
    (slots : List.Forall₂ (LocalUnder hierarchy) low high) :
    List.Forall₂ (Under hierarchy) low high := by
  induction slots with
  | nil => exact .nil
  | cons first _ ih =>
      rw [List.mem_cons, not_or] at usable
      exact .cons (first.resolve_left (Ne.symm usable.1)) (ih usable.2)

end FrameValue

namespace Frame

open FrameValue

/-- The first frame can take the place of the second. -/
structure Under (hierarchy : Hierarchy) (low high : Frame) : Prop where
  locals : List.Forall₂ (LocalUnder hierarchy) low.locals high.locals
  stack : List.Forall₂ (FrameValue.Under hierarchy) low.stack high.stack

/-- The second frame can take the place of the first, as far as the first has local slots. -/
structure Over (hierarchy : Hierarchy) (high low : Frame) : Prop where
  locals : List.Forall₂ (LocalUnder hierarchy) (low.locals.take high.locals.length) high.locals
  stack : List.Forall₂ (FrameValue.Under hierarchy) low.stack high.stack

variable {hierarchy : Hierarchy}

theorem Over.under {high low : Frame} (lies : Over hierarchy high low)
    (slots : low.locals.length = high.locals.length) : low.Under hierarchy high where
  locals := by
    rw [← List.take_length (l := low.locals), slots]
    exact lies.locals
  stack := lies.stack

end Frame

section Entrywise

variable {α : Type} {related : α → α → Prop}

theorem forall₂_trans (trans : ∀ low middle high, related low middle → related middle high →
      related low high) {low middle high : List α} (lower : List.Forall₂ related low middle)
    (upper : List.Forall₂ related middle high) : List.Forall₂ related low high := by
  induction lower generalizing high with
  | nil => exact upper
  | cons first _ ih =>
      cases upper with
      | cons second others => exact .cons (trans _ _ _ first second) (ih others)

theorem forall₂_zipWith {join : α → α → α} (left : ∀ a b, related a (join a b))
    (mine other : List α) :
    List.Forall₂ related (mine.take (List.zipWith join mine other).length)
      (List.zipWith join mine other) := by
  induction mine generalizing other with
  | nil => exact .nil
  | cons a rest ih =>
      cases other with
      | nil => exact .nil
      | cons b others => exact .cons (left a b) (ih others)

end Entrywise

namespace Frame

open FrameValue

variable {hierarchy : Hierarchy}

theorem Over.trans (acyclic : hierarchy.Acyclic) (rooted : hierarchy.Rooted)
    {high middle low : Frame} (upper : Over hierarchy high middle)
    (lower : Over hierarchy middle low) : Over hierarchy high low where
  locals := by
    -- The slots that the highest frame has, the middle one has too.
    have fewer : high.locals.length ≤ middle.locals.length := by
      have same := upper.locals.length_eq
      rw [List.length_take] at same
      omega
    have shared := List.forall₂_take high.locals.length lower.locals
    rw [List.take_take, Nat.min_eq_left fewer] at shared
    refine forall₂_trans ?_ shared upper.locals
    exact fun _ _ _ => LocalUnder.trans acyclic rooted
  stack := by
    refine forall₂_trans ?_ lower.stack upper.stack
    exact fun _ _ _ => FrameValue.Under.trans acyclic rooted

/-- Entrywise joining puts what it joins under the outcome. -/
theorem over_of_zipWith {join : FrameValue → FrameValue → FrameValue}
    (under : ∀ a b, LocalUnder hierarchy a (join a b)) {mine other merged : Frame}
    (heights : mine.stack.length = other.stack.length)
    (locals : merged.locals = List.zipWith join mine.locals other.locals)
    (stack : merged.stack = List.zipWith join mine.stack other.stack)
    (usable : FrameValue.uninitialized ∉ merged.stack) : Over hierarchy merged mine where
  locals := locals ▸ forall₂_zipWith under _ _
  stack := by
    have entries := forall₂_zipWith under mine.stack other.stack
    rw [← stack, List.take_of_length_le (by simp [stack, heights])] at entries
    exact under_of_usable usable entries

/-- Frames that one lies over stay under it when it is merged. -/
theorem over_joining (acyclic : hierarchy.Acyclic) (rooted : hierarchy.Rooted) :
    Analysis.Joining hierarchy (Over hierarchy) where
  refl frame := {
    locals := by
      rw [List.take_length]
      exact List.forall₂_same.mpr fun value _ => .inr (.same value)
    stack := List.forall₂_same.mpr fun value _ => .same value }
  trans upper lower := upper.trans acyclic rooted lower
  left joined := by
    obtain ⟨heights, locals, stack, usable⟩ := merge_eq_ok.mp joined
    exact over_of_zipWith (merge_left acyclic) heights locals stack usable
  right joined := by
    obtain ⟨heights, locals, stack, usable⟩ := merge_eq_ok.mp joined
    -- A merge is not the same both ways round, but both of its sides come under it.
    rw [List.zipWith_comm] at locals stack
    exact over_of_zipWith (fun b a => merge_right a b) heights.symm locals stack usable

end Frame

end StackCoroutine
