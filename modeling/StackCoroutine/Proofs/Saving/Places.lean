import StackCoroutine.Proofs.Saving.Moves

/-!
The places of the values of a frame. No two values share a place, and every place lies inside the
array that the layout provides for its category.
-/

namespace StackCoroutine

/-- Two places are different. -/
def StoredValue.Apart (first second : StoredValue) : Prop :=
  first.kind ≠ second.kind ∨ first.index ≠ second.index

theorem StoredValue.Apart.symm {first second : StoredValue} (apart : first.Apart second) :
    second.Apart first :=
  apart.imp Ne.symm Ne.symm

theorem storedValues_index {values : List FrameValue} {stored : StoredValue}
    (member : some stored ∈ storedValues values) : stored.index < countKind stored.kind values := by
  induction values with
  | nil => cases member
  | cons value earlier ih =>
      rw [storedValues] at member
      unfold countKind at ih ⊢
      rcases List.mem_cons.mp member with here | there
      · obtain ⟨kind, has, rfl⟩ := Option.map_eq_some_iff.mp here.symm
        rw [List.countP_cons_of_pos (by simp [FrameValue.hasKind, has])]
        exact Nat.lt_succ_self _
      · rw [List.countP_cons]
        have inside := ih there
        omega

theorem storedStack_apart (values : List FrameValue) :
    (storedStack values).Pairwise StoredValue.Apart := by
  unfold storedStack
  induction values with
  | nil => exact List.Pairwise.nil
  | cons value earlier ih =>
      rw [storedValues]
      cases has : value.kind with
      | none => exact ih
      | some kind =>
          refine List.pairwise_cons.mpr ⟨?_, ih⟩
          intro stored member
          obtain ⟨entry, listed, same⟩ := List.mem_filterMap.mp member
          have inside := storedValues_index (show some stored ∈ storedValues earlier from
            (show entry = some stored from same) ▸ listed)
          by_cases equal : kind = stored.kind
          · subst equal
            exact Or.inr (Nat.ne_of_gt inside)
          · exact Or.inl equal

theorem mem_storedStack {values : List FrameValue} {stored : StoredValue}
    (member : stored ∈ storedStack values) : some stored ∈ storedValues values := by
  obtain ⟨entry, listed, same⟩ := List.mem_filterMap.mp member
  exact (show entry = some stored from same) ▸ listed

/-- The values of a list that is cut off at the top keep their places. -/
theorem storedValues_drop (values : List FrameValue) (count : Nat) :
    storedValues (values.drop count) = (storedValues values).drop count := by
  induction values generalizing count with
  | nil => simp [storedValues]
  | cons value earlier ih =>
      cases count with
      | zero => rfl
      | succ count =>
          rw [List.drop_succ_cons, storedValues, List.drop_succ_cons]
          exact ih count

theorem storedLocals_fst (locals : List FrameValue) :
    (storedLocals locals).map Prod.fst = (storedStack locals.reverse).reverse := by
  unfold storedLocals storedStack
  rw [← List.filterMap_reverse, List.map_filterMap]
  generalize (storedValues locals.reverse).reverse = entries
  suffices numbered : ∀ start, (entries.zipIdx start).filterMap
      (fun item => (item.1.map fun stored => (stored, UInt16.ofNat item.2)).map Prod.fst) =
        entries.filterMap id from numbered 0
  induction entries with
  | nil => exact fun _ => rfl
  | cons entry rest ih =>
      intro start
      rw [List.zipIdx_cons, List.filterMap_cons, List.filterMap_cons, ih]
      cases entry <;> rfl

theorem storedLocals_apart (locals : List FrameValue) :
    ((storedLocals locals).map Prod.fst).Pairwise StoredValue.Apart := by
  rw [storedLocals_fst, List.pairwise_reverse]
  exact (storedStack_apart _).imp StoredValue.Apart.symm

/-- Stored values lie inside the arrays of their categories. -/
theorem storedStack_placed {values : List FrameValue} {sizes : Kind → Nat}
    (large : ∀ kind, countKind kind values ≤ sizes kind) (short : values.length < 2 ^ 31) :
    Placed sizes (SlotLayout.presentKinds values) (storedStack values) := by
  intro stored member
  have listed := mem_storedStack member
  obtain ⟨inside, has⟩ := mem_storedValues listed
  have index := storedValues_index listed
  have counted : countKind stored.kind values ≤ values.length := List.countP_le_length
  exact ⟨mem_presentKinds inside has, Nat.lt_of_lt_of_le index (large _), by omega⟩

theorem storedLocals_placed {locals : List FrameValue} {sizes : Kind → Nat}
    (large : ∀ kind, countKind kind locals ≤ sizes kind) (short : locals.length < 2 ^ 31) :
    Placed sizes (SlotLayout.presentKinds locals) ((storedLocals locals).map Prod.fst) := by
  have counted : ∀ kind, countKind kind locals.reverse = countKind kind locals :=
    fun kind => List.countP_reverse
  have same : SlotLayout.presentKinds locals.reverse = SlotLayout.presentKinds locals := by
    unfold SlotLayout.presentKinds
    simp only [counted]
  have placed : Placed sizes (SlotLayout.presentKinds locals.reverse)
      (storedStack locals.reverse) :=
    storedStack_placed (fun kind => (counted kind).trans_le (large kind)) (by simpa using short)
  intro stored member
  rw [storedLocals_fst, List.mem_reverse] at member
  exact same ▸ placed stored member

theorem presentKinds_nodup (values : List FrameValue) : (SlotLayout.presentKinds values).Nodup :=
  List.Nodup.filter _ (by decide)

end StackCoroutine
