import StackCoroutine.Proofs.Instrument.Grounded

/-!
Typing of the start of an instrumented method, which goes to the method's own code or to the restoring
code of a point, and the code for all points one after the other.
-/

namespace StackCoroutine.MethodPlan

variable {plan : MethodPlan} {scheme : Scheme} {base all facts : Set (Nat × Kind)}
  {stack : List Kind}

/-- The next saved frame is taken over. -/
theorem loadSavedFrame_typed (placed : plan.layout.Placed scheme.limit all)
    (covered : base ⊆ facts) (within : facts ⊆ all)
    (context : plan.layout.context.fact ∈ facts) :
    Types scheme base (some ⟨facts, stack⟩) plan.loadSavedFrame
      (some ⟨facts ∪ plan.loaded, stack⟩) := by
  let framed := insert plan.layout.savedFrame.fact facts
  let packed := insert plan.layout.container.fact framed
  have covered' : base ⊆ framed := covered.trans (Set.subset_insert _ _)
  have covered'' : base ⊆ packed := covered'.trans (Set.subset_insert _ _)
  have within' : framed ⊆ all := Set.insert_subset placed.savedFrame.2 within
  have within'' : packed ⊆ all := Set.insert_subset placed.container.2 within'
  have frame : plan.layout.savedFrame.fact ∈ packed := Or.inr (Or.inl rfl)
  have kept : facts ⊆ packed := (Set.subset_insert _ _).trans (Set.subset_insert _ _)
  have slots : {plan.layout.context.fact, plan.layout.savedFrame.fact,
      plan.layout.container.fact} ⊆ packed := by
    rintro fact (rfl | rfl | rfl)
    · exact kept context
    · exact frame
    · exact Or.inl rfl
  unfold MethodPlan.loadSavedFrame
  refine Types.append ?_ (?_ : Types scheme base (some ⟨packed, stack⟩) _ _)
  · refine Types.cons (Types.load placed.context.1 context covered) ?_
    refine Types.cons (Types.ask .ref (by simp [hostCalls]) covered) ?_
    refine Types.cons (Types.store placed.usable placed.savedFrame.1 placed.savedFrame.2 covered
      within) ?_
    refine Types.cons (Types.load placed.savedFrame.1 (Or.inl rfl) covered') ?_
    refine Types.cons (Types.ask .ref (by simp [hostCalls]) covered') ?_
    exact Types.store placed.usable placed.container.1 placed.container.2 covered' within'
  · rcases tracked : plan.layout.locks with _ | tracking
    · refine Types.nil (below_some.mpr ⟨?_, rfl⟩)
      refine Set.union_subset kept (Set.union_subset slots ?_)
      rintro fact ⟨locks, tracked', rfl⟩
      cases tracked.symm.trans tracked'
    · have ready := placed.locks tracking tracked
      refine Types.cons (Types.load placed.savedFrame.1 frame covered'') ?_
      refine Types.cons (Types.ask .ref (by simp [hostCalls]) covered'') ?_
      refine (Types.store placed.usable ready.state.1 ready.state.2 covered'' within'').weaken
        (.refl _) (below_some.mpr ⟨?_, rfl⟩)
      have more : packed ⊆ insert tracking.state.fact packed := Set.subset_insert _ _
      refine Set.union_subset (kept.trans more) (Set.union_subset (slots.trans more) ?_)
      rintro fact ⟨locks, tracked', rfl⟩
      cases tracked.symm.trans tracked'
      exact Set.mem_insert _ _

/-- The dispatcher leaves through labels only: that of the method's own code, and those of the
restoring code of the points. -/
theorem dispatcher_typed {limit : Nat} (result : Option Kind) (placed : plan.layout.Placed limit all)
    (within : facts ⊆ all) (context : plan.layout.context.fact ∈ facts) {supply : LabelSupply}
    (room : supply.number + 5 < 2 ^ 32) :
    ∃ fresh : List (Label × Option Shape),
      (definedLabels (plan.dispatcher.run supply).1.2 ++ [(plan.dispatcher.run supply).1.1]).Perm
        (fresh.map Prod.fst) ∧
      Between supply.number (plan.dispatcher.run supply).2.number (fresh.map Prod.fst) ∧
      (plan.dispatcher.run supply).2.number = supply.number + 5 ∧
      ((plan.dispatcher.run supply).1.1, some ⟨facts, []⟩) ∈ fresh ∧
      ∀ shapeAt, Declares shapeAt fresh →
        (∀ point ∈ plan.points, shapeAt point.restore = some ⟨plan.loaded, []⟩) →
        Types ⟨limit, result, shapeAt⟩ ∅ (some ⟨facts, []⟩) (plan.dispatcher.run supply).1.2
          none := by
  obtain ⟨between, last⟩ := LabelSupply.handOut_between room
  refine ⟨[((plan.dispatcher.run supply).1.1, some ⟨facts, []⟩), (⟨supply.next + 1⟩, some ⟨facts, []⟩),
    (⟨supply.next + 1 + 1⟩, some ⟨facts, []⟩), (⟨supply.next + 1 + 1 + 1⟩, some ⟨facts, []⟩),
    (⟨supply.next + 1 + 1 + 1 + 1⟩, some ⟨facts ∪ plan.loaded, []⟩)], ?_, between, last,
    List.mem_cons_self, ?_⟩
  · have defined : definedLabels (plan.dispatcher.run supply).1.2 =
        [⟨supply.next + 1⟩, ⟨supply.next + 1 + 1 + 1⟩, ⟨supply.next + 1 + 1⟩,
          ⟨supply.next + 1 + 1 + 1 + 1⟩] := by
      show definedLabels (_ ++ _ ++ throwIllegalState _ ++ _ ++ throwIllegalState _ ++ _ ++ _ ++
        plan.loadSavedFrame ++ _ ++ throwIllegalState _) = _
      simp only [definedLabels_append, (plan.marker_calm _).definedLabels,
        plan.loadSavedFrame_calm.definedLabels, throwIllegalState_labels, List.append_nil]
      rfl
    rw [defined]
    refine List.perm_iff_count.mpr fun label => ?_
    simp only [List.map_cons, List.map_nil, List.count_append, List.count_cons, List.count_nil]
    omega
  · intro shapeAt declared restores
    simp only [Declares, List.forall_mem_cons] at declared
    obtain ⟨normal, saving, loading, invalidMode, invalidPoint, _⟩ := declared
    have nothing : ∀ facts : Set (Nat × Kind), ∅ ⊆ facts := Set.empty_subset
    have frame : plan.layout.savedFrame.fact ∈ facts ∪ plan.loaded :=
      Or.inr (Or.inl (Or.inr (Or.inl rfl)))
    have modes : ∀ target ∈ [⟨supply.next + 1 + 1 + 1⟩, ⟨supply.next⟩, ⟨supply.next + 1⟩,
        ⟨supply.next + 1 + 1⟩], Below (some ⟨facts, []⟩) (shapeAt target) := by
      simp only [List.forall_mem_cons]
      exact ⟨below_declared invalidMode (.refl _), below_declared normal (.refl _),
        below_declared saving (.refl _), below_declared loading (.refl _), by simp⟩
    have points : ∀ target ∈ ⟨supply.next + 1 + 1 + 1 + 1⟩ :: plan.points.map Point.restore,
        Below (some ⟨facts ∪ plan.loaded, []⟩) (shapeAt target) := by
      intro target member
      rcases List.mem_cons.mp member with rfl | inside
      · exact below_declared invalidPoint (.refl _)
      · obtain ⟨point, listed, rfl⟩ := List.mem_map.mp inside
        exact below_declared (restores point listed) ⟨Set.subset_union_right, rfl⟩
    -- Behind each switch nothing is reached but through a label that has just been declared.
    show Types _ _ _ (_ ++ _) _
    simp only [List.append_assoc, List.cons_append, List.nil_append]
    refine (Types.marker plan _ (nothing _)).append ?_
    refine Types.cons (Types.load placed.context.1 context (nothing _)) ?_
    refine Types.cons (Types.ask .int (by simp [hostCalls]) (nothing _)) ?_
    refine Types.cons (Types.tableSwitch (nothing _) modes) ?_
    refine Types.cons (Types.label saving (below_none _) (nothing _)) ?_
    refine (Types.throwIllegalState _ (nothing _)).append ?_
    refine Types.cons (Types.label invalidMode (below_none _) (nothing _)) ?_
    refine (Types.throwIllegalState _ (nothing _)).append ?_
    refine Types.cons (Types.label loading (below_none _) (nothing _)) ?_
    refine (Types.marker plan _ (nothing _)).append ?_
    refine (loadSavedFrame_typed placed (nothing _) within context).append ?_
    refine Types.cons (Types.load placed.savedFrame.1 frame (nothing _)) ?_
    refine Types.cons (Types.ask .int (by simp [hostCalls]) (nothing _)) ?_
    refine Types.cons (Types.tableSwitch (nothing _) points) ?_
    refine Types.cons (Types.label invalidPoint (below_none _) (nothing _)) ?_
    exact Types.throwIllegalState _ (nothing _)

/-- The list of monitors is made before the method's own code. -/
theorem create_typed {normal : Label} (placed : plan.layout.Placed scheme.limit all)
    (within : facts ⊆ all) (declared : scheme.shapeAt normal = some ⟨facts, []⟩) :
    Types scheme ∅ none
      ([.label normal] ++ match plan.layout.locks with
        | some locks => locks.create
        | none => [])
      (some ⟨facts ∪ plan.layout.lockFacts, []⟩) := by
  refine (Types.label declared (below_none _) (Set.empty_subset _)).append ?_
  rcases tracked : plan.layout.locks with _ | tracking
  · refine Types.nil (below_some.mpr ⟨Set.union_subset Set.Subset.rfl ?_, rfl⟩)
    rintro fact ⟨locks, tracked', rfl⟩
    cases tracked.symm.trans tracked'
  · have ready := placed.locks tracking tracked
    refine (Types.createLocks placed.usable ready (Set.empty_subset _) within).weaken (.refl _)
      (below_some.mpr ⟨Set.union_subset (Set.subset_insert _ _) ?_, rfl⟩)
    rintro fact ⟨locks, tracked', rfl⟩
    cases tracked.symm.trans tracked'
    exact Set.mem_insert _ _

/-- A point with its code and the shapes in it. -/
structure CodedPoint where
  point : Point
  code : PointCode
  fresh : List (Label × Option Shape)
  segments : List Segment

/-- All points get their code, in their order. -/
theorem pointCodes_coded {points : List Point}
    (typable : ∀ point ∈ points, ∃ all, plan.Typable all point point.taken point.below)
    {supply : LabelSupply} (room : supply.number + 7 * points.length < 2 ^ 32) :
    ∃ items : List CodedPoint, items.map CodedPoint.point = points ∧
      ((plan.pointCodes points).run supply).1 =
        items.map (fun item => (item.point.index, item.code)) ∧
      (∀ item ∈ items, plan.Coded item.point item.point.taken item.point.below item.code item.fresh
        item.segments) ∧
      Between supply.number ((plan.pointCodes points).run supply).2.number
        (items.flatMap fun item => item.fresh.map Prod.fst) ∧
      ((plan.pointCodes points).run supply).2.number ≤ supply.number + 7 * points.length := by
  induction points generalizing supply with
  | nil =>
      exact ⟨[], rfl, rfl, by simp, .nil (Nat.le_refl _), Nat.le_add_right _ _⟩
  | cons point rest ih =>
      rw [List.length_cons] at room
      obtain ⟨all, here⟩ := typable point List.mem_cons_self
      obtain ⟨fresh, segments, coded, between, few⟩ :=
        here.pointCode (show supply.number + 7 < 2 ^ 32 by omega)
      obtain ⟨items, listed, codes, others, between', few'⟩ :=
        ih (fun other member => typable other (List.mem_cons_of_mem _ member))
          (show ((plan.pointCode point).run supply).2.number + 7 * rest.length < 2 ^ 32 by omega)
      have run : (plan.pointCodes (point :: rest)).run supply =
          ((point.index, ((plan.pointCode point).run supply).1) ::
            ((plan.pointCodes rest).run ((plan.pointCode point).run supply).2).1,
            ((plan.pointCodes rest).run ((plan.pointCode point).run supply).2).2) := by
        simp only [pointCodes, StateT.run_bind]
        rfl
      simp only [run]
      refine ⟨⟨point, ((plan.pointCode point).run supply).1, fresh, segments⟩ :: items,
        by rw [List.map_cons, listed], by rw [List.map_cons, codes], ?_,
        between.append between', ?_⟩
      · intro item member
        rcases List.mem_cons.mp member with rfl | later
        · exact coded
        · exact others item later
      · rw [List.length_cons]
        omega

end StackCoroutine.MethodPlan
