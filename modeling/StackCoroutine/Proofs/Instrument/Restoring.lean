import StackCoroutine.Proofs.Instrument.Points

/-!
Typing of the code that restores the frame of a continuation point. It starts with nothing but the
saved frame and ends where the method goes on after the call.
-/

namespace StackCoroutine.MethodPlan

/-- Labels of a point that its restoring code defines. -/
def restoringLabels (point : Point) : List Label :=
  match point.kind with
  | .guardedInvoke _ block => [point.restore, block.start, block.stop, block.handler]
  | _ => [point.restore]

/-- The repeated call inside its own try block. -/
def guardedCall (plan : MethodPlan) (point : Point) (taken : List Kind) (block : TryBlock) :
    Segment :=
  .keeping (plan.unpacked point.frame) (some ⟨plan.unpacked point.frame, taken⟩)
    [.label block.start, point.call, .label block.stop]

/-- A generator of restoring code takes a number of labels at most. Control comes to its code only
through the label of the point and never to its end; a guarded call is a segment of its own. -/
def Restores (plan : MethodPlan) (point : Point) (taken below : List Kind) (most : Nat)
    (generator : Labelled Code) : Prop :=
  ∀ supply : LabelSupply, supply.number + most < 2 ^ 32 →
    ∃ (fresh : List (Label × Option Shape)) (segments : List Segment),
      Segment.join segments = (generator.run supply).1 ∧
      Segment.startOf segments none = none ∧
      (definedLabels (generator.run supply).1).Perm
        (restoringLabels point ++ fresh.map Prod.fst) ∧
      Between supply.number (generator.run supply).2.number (fresh.map Prod.fst) ∧
      (generator.run supply).2.number ≤ supply.number + most ∧
      (∀ rethrow block, point.kind = .guardedInvoke rethrow block →
        plan.guardedCall point taken block ∈ segments) ∧
      ∀ shapeAt, Declares shapeAt (plan.declared point taken below ++ fresh) →
        Segment.Linked ⟨plan.layout.maxLocals.toNat, plan.result.kind, shapeAt⟩ segments none

namespace Typable

variable {plan : MethodPlan} {all : Set (Nat × Kind)} {point : Point} {taken below : List Kind}
  {scheme : Scheme} {base facts : Set (Nat × Kind)} {stack : List Kind}

theorem loadEntries (typable : plan.Typable all point taken below)
    (limit : scheme.limit = plan.layout.maxLocals.toNat) (covered : base ⊆ facts)
    (arrays : SlotLayout.arrayFacts plan.layout.stackArray point.frame.stack ⊆ facts) :
    Types scheme base (some ⟨facts, []⟩)
      (plan.layout.loadTop point.frame.stack point.frame.stack.length)
      (some ⟨facts, taken ++ below⟩) := by
  have storable : Storable scheme.limit plan.layout all point.frame := limit ▸ typable.toStorable
  have length : (taken ++ below).length = point.frame.stack.length := by
    simpa using (congrArg List.length typable.entries).symm
  have loaded : Types scheme base (some ⟨facts, []⟩) _
      (some ⟨facts, (taken ++ below).take point.frame.stack.length ++ []⟩) :=
    storable.loadTop covered arrays typable.entries point.frame.stack.length
  rwa [List.append_nil, List.take_of_length_le (Nat.le_of_eq length)] at loaded

/-- The frame is restored where the coroutine was suspended. -/
theorem restoreSuspend (typable : plan.Typable all point taken below)
    (suspend : point.kind = .suspend) :
    plan.Restores point taken below 2 (plan.restoreSuspend point) := by
  intro supply room
  obtain ⟨single, silent⟩ := typable.suspended suspend
  have acquires : Drafts plan.layout.maxLocals.toNat plan.result.kind all plan.loaded [] 2
      plan.enterStored :=
    enterStored_drafts typable.toPlaced Set.subset_union_right typable.loadedWithin
  obtain ⟨more, fresh, above, within, labels, between, few, types⟩ := acquires supply room
  let unpacked := more ∪ plan.layout.frameFacts point.frame
  have covered : plan.loaded ⊆ unpacked := above.trans Set.subset_union_left
  have within' : unpacked ⊆ all := Set.union_subset within typable.arrays
  let restored := unpacked ∪ point.frame.facts
  have covered' : plan.loaded ⊆ restored := covered.trans Set.subset_union_left
  have context : plan.layout.context.fact ∈ plan.loaded := Or.inl (Or.inl rfl)
  have container : plan.layout.container.fact ∈ plan.loaded := Or.inl (Or.inr (Or.inr rfl))
  have arrays : SlotLayout.arrayFacts plan.layout.stackArray point.frame.stack ⊆ restored :=
    (Set.subset_union_right.trans Set.subset_union_right).trans Set.subset_union_left
  refine ⟨fresh, [.keeping ∅ none ((plan.restoreSuspend point).run supply).1], ?_, rfl, ?_, between,
    few, ?_, ?_⟩
  · simp [Segment.join, Segment.keeping]
  · have defined : definedLabels ((plan.restoreSuspend point).run supply).1 =
        [point.restore] ++ fresh.map Prod.fst := by
      show definedLabels ([Insn.label point.restore] ++ _ ++ (plan.enterStored.run supply).1 ++ _ ++
        _ ++ _ ++ [Insn.pop] ++ _ ++ _ ++ [Insn.jump point.resume]) = _
      simp only [definedLabels_append, (plan.marker_calm _).definedLabels,
        (SlotLayout.unpack_calm _ _ _).definedLabels, (SlotLayout.loadLocals_calm _ _).definedLabels,
        (SlotLayout.pushAll_calm _ _).definedLabels, (plan.setMode_calm _).definedLabels,
        plan.unloadCurrent_calm.definedLabels, labels, MethodPlan.step, SlotLayout.loadTop,
        show definedLabels [Insn.pop] = [] from rfl,
        show definedLabels [Insn.jump point.resume] = [] from rfl, List.append_nil]
      rfl
    rw [defined, restoringLabels, suspend]
  · intro rethrow block guarded
    cases suspend.symm.trans guarded
  · intro shapeAt declared
    have resumes := declaredResume declared
    refine ⟨?_, trivial⟩
    show Types _ _ _ (_ ++ _) _
    simp only [List.append_assoc, Segment.startOf]
    have nothing : ∀ facts : Set (Nat × Kind), ∅ ⊆ facts := Set.empty_subset
    refine (Types.label (declaredRestore declared) (below_none _) (nothing _)).append ?_
    refine (Types.marker plan _ (nothing _)).append ?_
    refine (types shapeAt _ (fun pair member => declared pair (List.mem_append_right _ member))
      (nothing _)).append ?_
    refine (typable.toStorable.unpack (nothing _) within (above container)).append ?_
    refine (typable.toStorable.loadLocals (nothing _) within'
      (Set.subset_union_left.trans Set.subset_union_right)).append ?_
    refine (typable.loadEntries rfl (nothing _) arrays).append ?_
    rw [single]
    refine (Types.pop (nothing _)).append ?_
    refine (Types.setMode typable.toPlaced .normal (nothing _) (covered' context)).append ?_
    refine (Types.unloadCurrent typable.toPlaced (nothing _) (covered' context)).append ?_
    refine Types.jump (nothing _) (below_declared resumes ⟨?_, by simp [silent]⟩)
    exact Set.union_subset Set.subset_union_right (Set.subset_union_right.trans covered')

theorem declaredGuard {shapeAt : Label → Option Shape} {fresh : List (Label × Option Shape)}
    (declared : Declares shapeAt (plan.declared point taken below ++ fresh)) {rethrow : Label}
    {block : TryBlock} (guarded : point.kind = .guardedInvoke rethrow block) :
    shapeAt rethrow = some ⟨plan.throwableFacts ∪ plan.known point.frame, below⟩ ∧
      shapeAt block.start = some ⟨plan.unpacked point.frame, taken⟩ ∧
      shapeAt block.stop = some ⟨plan.unpacked point.frame, point.resultKind.toList⟩ ∧
      shapeAt block.handler = some ⟨plan.unpacked point.frame, [.ref]⟩ := by
  have listed : ∀ pair ∈ plan.declared point taken below, shapeAt pair.1 = pair.2 :=
    fun pair member => declared pair (List.mem_append_left _ member)
  simp only [MethodPlan.declared, guarded, List.forall_mem_cons] at listed
  exact ⟨listed.2.2.1, listed.2.2.2.1, listed.2.2.2.2.1, listed.2.2.2.2.2.1⟩

/-- The result of the call is kept in its variable, if there is one. -/
theorem cache (typable : plan.Typable all point taken below) (called : point.kind ≠ .suspend)
    (within : facts ⊆ all) :
    ∃ more, facts ⊆ more ∧ more ⊆ all ∧
      (∀ scheme, Scheme.limit scheme = plan.layout.maxLocals.toNat →
        Types scheme ∅ (some ⟨facts, point.resultKind.toList⟩)
          ((plan.cache? point).map Variable.store).toList (some ⟨more, []⟩)) ∧
      ∀ scheme facts' stack, more ⊆ facts' →
        Types scheme ∅ (some ⟨facts', stack⟩) ((plan.cache? point).map Variable.load).toList
          (some ⟨facts', point.resultKind.toList ++ stack⟩) := by
  unfold MethodPlan.cache?
  cases result : point.resultKind with
  | none =>
      exact ⟨facts, Set.Subset.rfl, within, fun _ _ => Types.nil (.refl _),
        fun _ _ _ _ => Types.nil (.refl _)⟩
  | some kind =>
      obtain ⟨var, found, has, member⟩ := typable.cached called kind result
      refine ⟨insert var.fact facts, Set.subset_insert _ _, Set.insert_subset member within, ?_, ?_⟩
      · intro scheme limit
        simp only [Option.bind_some, found, Option.map_some, Option.toList_some]
        exact Types.store (limit ▸ typable.usable) has member (Set.empty_subset _) within
      · intro scheme facts' stack above
        simp only [Option.bind_some, found, Option.map_some, Option.toList_some, List.cons_append,
          List.nil_append]
        exact Types.load has (above (Set.mem_insert _ _)) (Set.empty_subset _)

/-- The call is made again, inside its try block if it is guarded. -/
theorem repeatCall (typable : plan.Typable all point taken below)
    {fresh : List (Label × Option Shape)}
    (declared : Declares scheme.shapeAt (plan.declared point taken below ++ fresh)) :
    Types scheme (plan.unpacked point.frame) (some ⟨plan.unpacked point.frame, taken⟩)
      (repeatCall point)
      (some ⟨plan.unpacked point.frame, point.resultKind.toList⟩) := by
  have called : Types scheme (plan.unpacked point.frame)
      (some ⟨plan.unpacked point.frame, taken ++ []⟩) [point.call]
      (some ⟨plan.unpacked point.frame, point.resultKind.toList ++ []⟩) :=
    typable.call Set.Subset.rfl
  rw [List.append_nil, List.append_nil] at called
  unfold MethodPlan.repeatCall
  rcases kind : point.kind with _ | _ | ⟨rethrow, block⟩
  · exact called
  · exact called
  · obtain ⟨_, start, stop, _⟩ := declaredGuard declared kind
    refine Types.cons (Types.label start (.refl _) Set.Subset.rfl) ?_
    refine Types.cons called ?_
    exact Types.label stop (.refl _) Set.Subset.rfl

/-- An exception of the repeated call finds the frame restored when it is thrown on. -/
theorem restoreHandler (typable : plan.Typable all point taken below)
    (limit : scheme.limit = plan.layout.maxLocals.toNat) {fresh : List (Label × Option Shape)}
    (declared : Declares scheme.shapeAt (plan.declared point taken below ++ fresh)) :
    Types scheme ∅ none (plan.restoreHandler point) none := by
  unfold MethodPlan.restoreHandler
  rcases kind : point.kind with _ | _ | ⟨rethrow, block⟩
  · exact Types.nil (.refl _)
  · exact Types.nil (.refl _)
  obtain ⟨var, has, reference, member⟩ := typable.thrown rethrow block kind
  obtain ⟨rethrows, _, _, catches⟩ := declaredGuard declared kind
  have storable : Storable scheme.limit plan.layout all point.frame := limit ▸ typable.toStorable
  let caught := insert var.fact (plan.unpacked point.frame)
  have within : caught ⊆ all := Set.insert_subset member typable.unpackedWithin
  let restored := caught ∪ point.frame.facts
  have kept : plan.unpacked point.frame ⊆ restored :=
    (Set.subset_insert _ _).trans Set.subset_union_left
  have context : plan.layout.context.fact ∈ restored := kept (Or.inl (Or.inl (Or.inl rfl)))
  have frame : plan.layout.savedFrame.fact ∈ restored :=
    kept (Or.inl (Or.inl (Or.inr (Or.inl rfl))))
  have arrays : plan.layout.frameFacts point.frame ⊆ plan.unpacked point.frame :=
    Set.subset_union_right
  have nothing : ∀ facts : Set (Nat × Kind), ∅ ⊆ facts := Set.empty_subset
  simp only [PointKind.guard?, has, Option.map_some, Option.toList_some, List.append_assoc,
    List.cons_append, List.nil_append]
  refine Types.cons (Types.label catches (below_none _) (nothing _)) ?_
  refine Types.cons (Types.store storable.usable reference member (nothing _)
    typable.unpackedWithin) ?_
  refine (storable.loadLocals (nothing _) within
    ((Set.subset_union_left.trans arrays).trans (Set.subset_insert _ _))).append ?_
  refine (typable.loadBelow limit (nothing _)
    ((Set.subset_union_right.trans arrays).trans kept)).append ?_
  refine Types.cons (Types.load storable.context.1 context (nothing _)) ?_
  refine Types.cons (Types.load storable.savedFrame.1 frame (nothing _)) ?_
  refine Types.cons (Types.consumeTwo (Signature.ofInsn_hostCall (by simp [hostCalls, Dispatch.hasReceiver])) rfl
    (nothing _)) ?_
  refine Types.jump (nothing _) (below_declared rethrows ⟨?_, rfl⟩)
  refine Set.union_subset ?_ (Set.union_subset Set.subset_union_right ?_)
  · rintro fact ⟨other, has', rfl⟩
    cases has.symm.trans has'
    exact Or.inl (Set.mem_insert _ _)
  · exact (Set.subset_union_right.trans Set.subset_union_left).trans kept

end Typable

/-- Restoring code up to the repeated call. -/
def beforeCall (plan : MethodPlan) (point : Point) (acquire : Code) : Code :=
  [.label point.restore] ++ plan.step point "restore" ++ acquire ++
    plan.layout.unpack point.frame.locals point.frame.stack ++
    (if plan.settings.debugMode then plan.layout.loadLocals point.frame.locals else []) ++
    plan.layout.loadTop point.frame.stack point.argumentCount

/-- Restoring code behind the repeated call. -/
def afterCall (plan : MethodPlan) (point : Point) (notSaving : Label) (release : Code) : Code :=
  plan.branchUnlessSaving notSaving ++ popResult point ++ release ++ dummyReturn plan.result ++
    [.label notSaving] ++ ((plan.cache? point).map Variable.store).toList ++
    plan.layout.loadLocals point.frame.locals ++
    plan.layout.loadBelow point.frame.stack point.argumentCount ++
    ((plan.cache? point).map Variable.load).toList ++ plan.unloadCurrent ++
    [.jump point.resume] ++ plan.restoreHandler point

/-- Labels around the repeated call and at its handler. -/
theorem restoringLabels_eq (plan : MethodPlan) (point : Point) :
    restoringLabels point = point.restore ::
      (definedLabels (repeatCall point) ++ definedLabels (plan.restoreHandler point)) := by
  unfold restoringLabels repeatCall restoreHandler
  rcases point.kind with _ | _ | ⟨rethrow, block⟩
  · rfl
  · rfl
  · simp only [PointKind.guard?, definedLabels_append,
      (SlotLayout.loadLocals_calm _ _).definedLabels, SlotLayout.loadBelow,
      (SlotLayout.pushAll_calm _ _).definedLabels, List.append_nil]
    cases plan.layout.throwable <;> rfl

theorem beforeCall_labels (plan : MethodPlan) (point : Point) (acquire : Code) :
    definedLabels (plan.beforeCall point acquire) = point.restore :: definedLabels acquire := by
  have debug : definedLabels
      (if plan.settings.debugMode then plan.layout.loadLocals point.frame.locals else []) = [] := by
    split
    · exact (SlotLayout.loadLocals_calm _ _).definedLabels
    · rfl
  unfold beforeCall
  simp only [definedLabels_append, step, (plan.marker_calm _).definedLabels,
    (SlotLayout.unpack_calm _ _ _).definedLabels, debug, SlotLayout.loadTop,
    (SlotLayout.pushAll_calm _ _).definedLabels, List.append_nil]
  rfl

theorem afterCall_labels (plan : MethodPlan) (point : Point) (notSaving : Label) (release : Code) :
    definedLabels (plan.afterCall point notSaving release) =
      definedLabels release ++ notSaving :: definedLabels (plan.restoreHandler point) := by
  have moves : ∀ move : Variable → Insn, (∀ var, (move var).isCalm = true) →
      definedLabels ((plan.cache? point).map move).toList = [] := by
    intro move calm
    refine Calm.definedLabels ?_
    cases plan.cache? point with
    | none => exact Calm.nil
    | some var => exact Calm.cons_iff.mpr ⟨calm var, Calm.nil⟩
  unfold afterCall
  simp only [definedLabels_append, plan.branchUnlessSaving_labels,
    (popResult_calm _).definedLabels, dummyReturn_labels, moves Variable.store fun _ => rfl,
    moves Variable.load fun _ => rfl, (SlotLayout.loadLocals_calm _ _).definedLabels,
    SlotLayout.loadBelow, (SlotLayout.pushAll_calm _ _).definedLabels,
    plan.unloadCurrent_calm.definedLabels, List.nil_append, List.append_assoc]
  rfl

theorem restoreInvoke_run (plan : MethodPlan) (point : Point) (supply : LabelSupply) :
    (plan.restoreInvoke point).run supply =
      (plan.beforeCall point (plan.enterStored.run (freshLabel.run supply).2).1 ++
        repeatCall point ++
        plan.afterCall point (freshLabel.run supply).1
          (plan.exitStored.run (plan.enterStored.run (freshLabel.run supply).2).2).1,
        (plan.exitStored.run (plan.enterStored.run (freshLabel.run supply).2).2).2) := by
  simp only [beforeCall, afterCall, ← List.append_assoc]
  rfl

namespace Typable

variable {plan : MethodPlan} {all : Set (Nat × Kind)} {point : Point} {taken below : List Kind}

/-- The arguments of the call are restored, and in debug mode the locals. -/
theorem beforeCall (typable : plan.Typable all point taken below) {scheme : Scheme}
    (limit : scheme.limit = plan.layout.maxLocals.toNat) {fresh : List (Label × Option Shape)}
    (declared : Declares scheme.shapeAt (plan.declared point taken below ++ fresh))
    {acquire : Code} {more : Set (Nat × Kind)} (above : plan.loaded ⊆ more) (within : more ⊆ all)
    (acquires : Types scheme ∅ (some ⟨plan.loaded, []⟩) acquire (some ⟨more, []⟩)) :
    Types scheme ∅ none (plan.beforeCall point acquire)
      (some ⟨plan.unpacked point.frame, taken⟩) := by
  have storable : Storable scheme.limit plan.layout all point.frame := limit ▸ typable.toStorable
  have nothing : ∀ facts : Set (Nat × Kind), ∅ ⊆ facts := Set.empty_subset
  let unpacked := more ∪ plan.layout.frameFacts point.frame
  have within' : unpacked ⊆ all := Set.union_subset within typable.arrays
  have covered : plan.unpacked point.frame ⊆ unpacked :=
    Set.union_subset_union above Set.Subset.rfl
  have container : plan.layout.container.fact ∈ more :=
    above (Or.inl (Or.inr (Or.inr rfl)))
  have arrays : plan.layout.frameFacts point.frame ⊆ unpacked := Set.subset_union_right
  have debugged : ∃ restored, unpacked ⊆ restored ∧
      Types scheme ∅ (some ⟨unpacked, []⟩)
        (if plan.settings.debugMode then plan.layout.loadLocals point.frame.locals else [])
        (some ⟨restored, []⟩) := by
    split
    · exact ⟨unpacked ∪ point.frame.facts, Set.subset_union_left,
        storable.loadLocals (nothing _) within' (Set.subset_union_left.trans arrays)⟩
    · exact ⟨unpacked, Set.Subset.rfl, Types.nil (.refl _)⟩
  obtain ⟨restored, wider, debug⟩ := debugged
  have loaded : Types scheme ∅ (some ⟨restored, []⟩) _ (some ⟨restored, taken ++ []⟩) :=
    typable.loadArguments limit (nothing _) ((Set.subset_union_right.trans arrays).trans wider)
  rw [List.append_nil] at loaded
  unfold MethodPlan.beforeCall
  simp only [List.append_assoc]
  refine (Types.label (declaredRestore declared) (below_none _) (nothing _)).append ?_
  refine (Types.marker plan _ (nothing _)).append ?_
  refine acquires.append ?_
  refine (storable.unpack (nothing _) within container).append ?_
  refine debug.append ?_
  exact loaded.weaken (.refl _) (below_some.mpr ⟨covered.trans wider, rfl⟩)

/-- The frame is given up again, or restored for good. -/
theorem afterCall (typable : plan.Typable all point taken below) (called : point.kind ≠ .suspend)
    {scheme : Scheme} (limit : scheme.limit = plan.layout.maxLocals.toNat)
    (result : scheme.result = plan.result.kind) {fresh : List (Label × Option Shape)}
    (declared : Declares scheme.shapeAt (plan.declared point taken below ++ fresh))
    {notSaving : Label} (target : scheme.shapeAt notSaving =
      some ⟨plan.unpacked point.frame, point.resultKind.toList⟩)
    {release : Code} {more : Set (Nat × Kind)}
    (releases : Types scheme ∅ (some ⟨plan.unpacked point.frame, []⟩) release
      (some ⟨more, []⟩)) :
    Types scheme ∅ (some ⟨plan.unpacked point.frame, point.resultKind.toList⟩)
      (plan.afterCall point notSaving release) none := by
  have storable : Storable scheme.limit plan.layout all point.frame := limit ▸ typable.toStorable
  have nothing : ∀ facts : Set (Nat × Kind), ∅ ⊆ facts := Set.empty_subset
  have context : plan.layout.context.fact ∈ plan.unpacked point.frame :=
    Or.inl (Or.inl (Or.inl rfl))
  have locks : plan.layout.lockFacts ⊆ plan.unpacked point.frame :=
    Set.subset_union_right.trans Set.subset_union_left
  have arrays : plan.layout.frameFacts point.frame ⊆ plan.unpacked point.frame :=
    Set.subset_union_right
  obtain ⟨kept, above, within, storing, loading⟩ := typable.cache called typable.unpackedWithin
  let restored := kept ∪ point.frame.facts
  have covered : plan.unpacked point.frame ⊆ restored := above.trans Set.subset_union_left
  have dropped : Types scheme ∅
      (some ⟨plan.unpacked point.frame, point.resultKind.toList ++ []⟩) (popResult point)
      (some ⟨plan.unpacked point.frame, []⟩) :=
    Types.popResult (nothing _)
  rw [List.append_nil] at dropped
  unfold MethodPlan.afterCall
  simp only [List.append_assoc]
  refine (Types.branchUnlessSaving storable.toPlaced (nothing _) context ?_).append ?_
  · exact below_declared target (.refl _)
  refine dropped.append ?_
  refine releases.append ?_
  refine (Types.dummyReturn result (nothing _)).append ?_
  refine (Types.label target (below_none _) (nothing _)).append ?_
  refine (storing scheme limit).append ?_
  refine (storable.loadLocals (nothing _) within
    ((Set.subset_union_left.trans arrays).trans above)).append ?_
  refine (typable.loadBelow limit (nothing _)
    ((Set.subset_union_right.trans arrays).trans covered)).append ?_
  refine (loading scheme restored below Set.subset_union_left).append ?_
  refine (Types.unloadCurrent storable.toPlaced (nothing _) (covered context)).append ?_
  refine (Types.jump (nothing _) ?_).append (typable.restoreHandler limit declared)
  refine below_declared (declaredResume declared) ⟨?_, rfl⟩
  exact Set.union_subset Set.subset_union_right (locks.trans covered)

/-- The frame is restored around a call that is made again. -/
theorem restoreInvoke (typable : plan.Typable all point taken below)
    (called : point.kind ≠ .suspend) :
    plan.Restores point taken below 5 (plan.restoreInvoke point) := by
  intro supply room
  obtain ⟨single, next⟩ := freshLabel_between (show supply.number + 1 < 2 ^ 32 by omega)
  have acquires : Drafts plan.layout.maxLocals.toNat plan.result.kind all plan.loaded [] 2
      plan.enterStored :=
    enterStored_drafts typable.toPlaced Set.subset_union_right typable.loadedWithin
  obtain ⟨more, fresh, above, within, labels, between, few, types⟩ :=
    acquires (freshLabel.run supply).2 (by omega)
  have releases : Drafts plan.layout.maxLocals.toNat plan.result.kind all
      (plan.unpacked point.frame) [] 2 plan.exitStored :=
    exitStored_drafts typable.toPlaced
      (Set.subset_union_right.trans Set.subset_union_left) typable.unpackedWithin
  obtain ⟨more', fresh', above', within', labels', between', few', types'⟩ :=
    releases (plan.enterStored.run (freshLabel.run supply).2).2 (by omega)
  rw [restoreInvoke_run]
  generalize (freshLabel.run supply).1 = notSaving at *
  generalize (plan.exitStored.run (plan.enterStored.run (freshLabel.run supply).2).2).1 = release
    at *
  generalize (plan.enterStored.run (freshLabel.run supply).2).1 = acquire at *
  refine ⟨(notSaving, some ⟨plan.unpacked point.frame, point.resultKind.toList⟩) ::
      (fresh ++ fresh'),
    [.keeping ∅ none (plan.beforeCall point acquire),
      .keeping (plan.unpacked point.frame) (some ⟨plan.unpacked point.frame, taken⟩)
        (MethodPlan.repeatCall point),
      .keeping ∅ (some ⟨plan.unpacked point.frame, point.resultKind.toList⟩)
        (plan.afterCall point notSaving release)], ?_, rfl, ?_, ?_, ?_, ?_, ?_⟩
  · simp [Segment.join, Segment.keeping]
  · simp only [definedLabels_append, beforeCall_labels, afterCall_labels,
      plan.restoringLabels_eq, labels, labels', List.map_cons, List.map_append]
    refine List.perm_iff_count.mpr fun label => ?_
    simp only [List.count_append, List.count_cons]
    omega
  · rw [List.map_cons, List.map_append]
    exact single.append (between.append between')
  · simp only
    omega
  · intro rethrow block guarded
    simp [MethodPlan.guardedCall, MethodPlan.repeatCall, guarded, PointKind.guard?]
  · intro shapeAt declared
    obtain ⟨given, here, rest⟩ := (declares_append.mp declared).imp_right List.forall_mem_cons.mp
    obtain ⟨early, late⟩ := declares_append.mp rest
    refine ⟨?_, ?_, ?_, trivial⟩
    · exact typable.beforeCall rfl declared above within
        (types shapeAt _ early (Set.empty_subset _))
    · exact typable.repeatCall declared
    · exact typable.afterCall called rfl rfl declared here
        (types' shapeAt _ late (Set.empty_subset _))

end Typable

/-- The code for a point: its labels are those of the point and fresh ones, and once they have their
shapes, the saving code goes on as the call does and the restoring code holds together. -/
structure Coded (plan : MethodPlan) (point : Point) (taken below : List Kind) (code : PointCode)
    (fresh : List (Label × Option Shape)) (segments : List Segment) : Prop where
  restoring : Segment.join segments = code.restore
  starts : Segment.startOf segments none = none
  labels : (definedLabels code.save ++ definedLabels code.restore).Perm
    (point.labels ++ fresh.map Prod.fst)
  guarded : ∀ rethrow block, point.kind = .guardedInvoke rethrow block →
    plan.guardedCall point taken block ∈ segments
  typed : ∀ shapeAt, Declares shapeAt (plan.declared point taken below ++ fresh) →
    Types ⟨plan.layout.maxLocals.toNat, plan.result.kind, shapeAt⟩ (plan.known point.frame)
        (some ⟨plan.known point.frame, taken ++ below⟩) code.save
        (some ⟨plan.known point.frame, point.resultKind.toList ++ below⟩) ∧
      Segment.Linked ⟨plan.layout.maxLocals.toNat, plan.result.kind, shapeAt⟩ segments none

variable {plan : MethodPlan} {all : Set (Nat × Kind)} {point : Point} {taken below : List Kind}

/-- Saving and restoring code together make the code of a point. -/
theorem coded_of_parts {own : List Label} {most : Nat} {save restore : Labelled Code}
    (saves : plan.Saves point taken below own save)
    (restores : plan.Restores point taken below most restore)
    (labels : (own ++ restoringLabels point).Perm point.labels) {supply : LabelSupply}
    (room : supply.number + (2 + most) < 2 ^ 32) :
    ∃ fresh segments,
      plan.Coded point taken below
        ⟨(save.run supply).1, (restore.run (save.run supply).2).1⟩ fresh segments ∧
      Between supply.number (restore.run (save.run supply).2).2.number (fresh.map Prod.fst) ∧
      (restore.run (save.run supply).2).2.number ≤ supply.number + (2 + most) := by
  obtain ⟨early, defined, between, few, types⟩ := saves supply (by omega)
  obtain ⟨late, segments, joined, starts, defined', between', few', guarded, linked⟩ :=
    restores (save.run supply).2 (by omega)
  refine ⟨early ++ late, segments, ⟨joined, starts, ?_, guarded, ?_⟩, ?_, by omega⟩
  · rw [defined]
    refine (List.Perm.append_left _ defined').trans ?_
    refine List.perm_iff_count.mpr fun label => ?_
    have same := labels.count_eq label
    simp only [List.map_append, List.count_append] at same ⊢
    omega
  · intro shapeAt declared
    obtain ⟨given, new⟩ := declares_append.mp declared
    obtain ⟨first, second⟩ := declares_append.mp new
    exact ⟨types shapeAt (declares_append.mpr ⟨given, first⟩),
      linked shapeAt (declares_append.mpr ⟨given, second⟩)⟩
  · rw [List.map_append]
    exact between.append between'

theorem pointCode_suspend (plan : MethodPlan) {point : Point} (suspend : point.kind = .suspend)
    (supply : LabelSupply) :
    (plan.pointCode point).run supply =
      (⟨((plan.saveSuspend point).run supply).1,
        ((plan.restoreSuspend point).run ((plan.saveSuspend point).run supply).2).1⟩,
        ((plan.restoreSuspend point).run ((plan.saveSuspend point).run supply).2).2) := by
  unfold pointCode
  simp only [suspend, PointKind.isSuspend, if_true, StateT.run_bind]
  rfl

theorem pointCode_invoke (plan : MethodPlan) {point : Point} (called : point.kind ≠ .suspend)
    (supply : LabelSupply) :
    (plan.pointCode point).run supply =
      (⟨((plan.saveInvoke point).run supply).1,
        ((plan.restoreInvoke point).run ((plan.saveInvoke point).run supply).2).1⟩,
        ((plan.restoreInvoke point).run ((plan.saveInvoke point).run supply).2).2) := by
  have other : point.kind.isSuspend = false := by
    unfold PointKind.isSuspend
    split
    · exact absurd (by assumption) called
    · rfl
  unfold pointCode
  simp only [other, Bool.false_eq_true, if_false, StateT.run_bind]
  rfl

/-- Every point that can be typed gets its code. -/
theorem Typable.pointCode (typable : plan.Typable all point taken below) {supply : LabelSupply}
    (room : supply.number + 7 < 2 ^ 32) :
    ∃ fresh segments,
      plan.Coded point taken below ((plan.pointCode point).run supply).1 fresh segments ∧
      Between supply.number ((plan.pointCode point).run supply).2.number
        (fresh.map Prod.fst) ∧
      ((plan.pointCode point).run supply).2.number ≤ supply.number + 7 := by
  by_cases suspend : point.kind = .suspend
  · have labels : ([point.resume] ++ restoringLabels point).Perm point.labels := by
      simp [restoringLabels, Point.labels, PointKind.labels, suspend]
    obtain ⟨fresh, segments, coded, between, few⟩ := coded_of_parts typable.saveSuspend
      (typable.restoreSuspend suspend) labels (show supply.number + 4 < 2 ^ 32 by omega)
    simp only [pointCode_suspend plan suspend]
    exact ⟨fresh, segments, coded, between, Nat.le_trans few (by omega)⟩
  · have labels : ((definedLabels (plan.rethrow point) ++ [point.resume]) ++
        restoringLabels point).Perm point.labels := by
      rw [rethrow_labels]
      unfold restoringLabels Point.labels
      rcases kind : point.kind with _ | _ | ⟨rethrow, block⟩
      · exact absurd kind suspend
      · exact List.Perm.refl _
      · refine List.perm_iff_count.mpr fun label => ?_
        simp only [PointKind.labels, List.count_append, List.count_cons, List.count_nil]
        omega
    obtain ⟨fresh, segments, coded, between, few⟩ := coded_of_parts typable.saveInvoke
      (typable.restoreInvoke suspend) labels (show supply.number + (2 + 5) < 2 ^ 32 by omega)
    simp only [pointCode_invoke plan suspend]
    exact ⟨fresh, segments, coded, between, Nat.le_trans few (by omega)⟩

end StackCoroutine.MethodPlan
