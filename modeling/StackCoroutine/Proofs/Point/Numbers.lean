import Mathlib.Data.List.Nodup
import Mathlib.Data.List.Perm.Subperm
import StackCoroutine.Proofs.Instrument.Planned
import StackCoroutine.Proofs.Point.Fields

/-!
Numbers of continuation points. The points of a method are numbered in the order of its code, and
each defines two labels of its own in the instrumented code; since labels are numbers of 32 bits and
no label is defined twice, the number of a point is a natural number of 31 bits.
-/

namespace StackCoroutine

/-! ### Labels of accepted code -/

/-- Code whose labels can be looked up defines no label twice. -/
theorem definedLabels_nodup {code : Code} {labels : LabelTable}
    (collected : Analysis.labelTable code = .ok labels) : (definedLabels code).Nodup := by
  unfold definedLabels List.Nodup
  rw [List.pairwise_filterMap, List.pairwise_iff_getElem]
  intro first second inside inside' before label found other found' same
  subst same
  have defines : ∀ {place : Nat} (inside : place < code.length),
      label ∈ definedLabels [code[place]] → code[place]? = some (.label label) := by
    intro place inside defined
    rw [List.getElem?_eq_getElem inside, List.mem_singleton.mp (mem_definedLabels.mp defined)]
  have first_label := List.mem_filterMap.mpr ⟨_, List.mem_singleton_self _, found⟩
  have second_label := List.mem_filterMap.mpr ⟨_, List.mem_singleton_self _, found'⟩
  -- Both places are the one that the label stands for.
  have here := (Analysis.labelTable_resolve collected label first).mpr
    (defines inside first_label)
  have there := (Analysis.labelTable_resolve collected label second).mpr
    (defines inside' second_label)
  cases here.symm.trans there
  exact Nat.lt_irrefl _ before

/-- There are no more labels than numbers of 32 bits. -/
theorem labels_few {labels : List Label} (distinct : labels.Nodup) : labels.length ≤ 2 ^ 32 := by
  have numbers : (labels.map fun label => label.number.toNat).Nodup := by
    refine distinct.map fun first second same => ?_
    cases first
    cases second
    exact congrArg Label.mk (UInt32.toNat_inj.mp same)
  have inside : (labels.map fun label => label.number.toNat) ⊆ List.range (2 ^ 32) := by
    intro number member
    obtain ⟨label, _, rfl⟩ := List.mem_map.mp member
    exact List.mem_range.mpr label.number.toNat_lt
  have few := (List.subperm_of_subset numbers inside).length_le
  rwa [List.length_map, List.length_range] at few

/-! ### The order of points -/

namespace Detection

/-- The points found before an index stand in the order of the code and are numbered in it. -/
structure Counted (index : Nat) (found : Detection) : Prop where
  ordered : (found.points.map Point.index).Pairwise (· < ·)
  searched : ∀ point ∈ found.points, point.index < index
  numbered : ∀ (number : Nat) point, found.points[number]? = some point → point.number = number

/-- What a search comes to, if it finds no call that cannot be instrumented. -/
def Counts (length : Nat) : Except InstrumentError Detection × LabelSupply → Prop
  | (.ok found, _) => found.Counted length
  | _ => True

theorem Counted.next {index : Nat} {found : Detection} (counted : found.Counted index) :
    found.Counted (index + 1) :=
  { counted with
    searched := fun point member => Nat.lt_succ_of_lt (counted.searched point member) }

/-- The next point stands behind those before it and has the number of them. -/
theorem Counted.add {index : Nat} {found : Detection} (counted : found.Counted index)
    {point : Point} (here : point.index = index) (number : point.number = found.points.length) :
    Counted (index + 1) { found with points := found.points ++ [point] } where
  ordered := by
    rw [List.map_append, List.pairwise_append]
    refine ⟨counted.ordered, List.pairwise_singleton _ _, fun place member other last => ?_⟩
    obtain ⟨earlier, listed, rfl⟩ := List.mem_map.mp member
    cases List.mem_singleton.mp last
    exact here ▸ counted.searched earlier listed
  searched := by
    intro other member
    rcases List.mem_append.mp member with old | new
    · exact Nat.lt_succ_of_lt (counted.searched other old)
    · cases List.mem_singleton.mp new
      exact Nat.lt_succ_of_le (Nat.le_of_eq here)
  numbered := by
    intro place other found'
    rw [List.getElem?_append] at found'
    split at found'
    · exact counted.numbered place other found'
    · obtain ⟨first, same⟩ := List.getElem?_eq_some_iff.mp found'
      simp only [List.length_singleton] at first
      simp only [show place - found.points.length = 0 by omega, List.getElem_cons_zero] at same
      subst same
      omega

theorem ofMethod_counts (hierarchy : Hierarchy) (owner : String) (method : Method)
    (known : Analysis) (supply : LabelSupply) :
    Counts method.code.length ((ofMethod hierarchy owner method known).run.run supply) := by
  rcases searched : (ofMethod hierarchy owner method known).run.run supply with ⟨_ | last, _⟩
  · exact trivial
  · -- Whether the points are counted has nothing to do with monitors.
    have counted : Counted method.code.length ⟨last.points, []⟩ :=
      ofMethod_keeps (fun index points => Counted index ⟨points, []⟩)
        (fun _ _ counted => counted.next)
        (fun _ _ _ counted added => counted.add added.here added.number)
        ⟨by simp, by simp, by simp⟩ (congrArg Prod.fst searched)
    exact ⟨counted.ordered, counted.searched, counted.numbered⟩

end Detection

/-- The points of a plan stand in the order of the code and are numbered in it. -/
theorem Method.plan?_counted {hierarchy : Hierarchy} {settings : InstrumentSettings} {owner : String}
    {method : Method} {plan : MethodPlan} {supply : LabelSupply}
    (planned : method.plan? hierarchy settings owner = .ok (some (plan, supply))) :
    Detection.Counted method.code.length ⟨plan.points, plan.monitorUses⟩ ∧ plan.owner = owner := by
  obtain ⟨_, _, known, _, _, _, searched, _, _, named, _⟩ := plan?_some planned
  have counts := Detection.ofMethod_counts hierarchy owner method known
    (LabelSupply.above method.code method.tryBlocks)
  rw [searched] at counts
  exact ⟨counts, named⟩

/-! ### Labels of points -/

namespace MethodPlan

variable {plan : MethodPlan}

theorem saved_label (plan : MethodPlan) (point : Point) (supply : LabelSupply) :
    .label point.resume ∈ ((plan.pointCode point).run supply).1.save := by
  by_cases suspend : point.kind = .suspend
  · rw [pointCode_suspend plan suspend]
    exact List.mem_append_right _ List.mem_cons_self
  · rw [pointCode_invoke plan suspend]
    exact List.mem_append_right _ List.mem_cons_self

theorem restored_label (plan : MethodPlan) (point : Point) (supply : LabelSupply) :
    .label point.restore ∈ ((plan.pointCode point).run supply).1.restore := by
  by_cases suspend : point.kind = .suspend
  · rw [pointCode_suspend plan suspend]
    exact List.mem_of_head? rfl
  · rw [pointCode_invoke plan suspend, restoreInvoke_run]
    exact List.mem_append_left _ (List.mem_append_left _ (mem_definedLabels.mp
      (beforeCall_labels plan point _ ▸ List.mem_cons_self)))

/-- All codes of points are made by the generator for one of them. -/
theorem of_pointCodes {points : List Point} {supply : LabelSupply} {entry : Nat × PointCode}
    (member : entry ∈ ((plan.pointCodes points).run supply).1) :
    ∃ point taken, entry = (point.index, ((plan.pointCode point).run taken).1) := by
  induction points generalizing supply with
  | nil => cases member
  | cons point rest ih =>
      rw [pointCodes_run] at member
      rcases List.mem_cons.mp member with rfl | later
      · exact ⟨point, supply, rfl⟩
      · exact ih later

/-- Each point defines a label in the code that restores its frame. -/
theorem restoring_labels (points : List Point) (supply : LabelSupply) :
    points.length ≤ (definedLabels (((plan.pointCodes points).run supply).1.flatMap
      fun entry => entry.2.restore)).length := by
  induction points generalizing supply with
  | nil => exact Nat.zero_le _
  | cons point rest ih =>
      have first := List.length_pos_of_mem
        (mem_definedLabels.mpr (restored_label plan point supply))
      have others := ih ((plan.pointCode point).run supply).2
      rw [pointCodes_run, List.flatMap_cons, definedLabels_append, List.length_append,
        List.length_cons]
      dsimp only at others ⊢
      omega

/-- The code for an instruction that is the call of a point defines a label. -/
theorem saving_label {codes : List (Nat × PointCode)} {index : Nat} {insn : Insn}
    (coded : ∀ entry ∈ codes, ∃ label, Insn.label label ∈ entry.2.save)
    (looked : (codes.lookup index).isSome = true) :
    0 < (definedLabels (plan.replacement codes index insn)).length := by
  obtain ⟨code, found⟩ := Option.isSome_iff_exists.mp looked
  obtain ⟨label, member⟩ := coded _ (Outcome.lookup_mem found)
  unfold replacement
  rw [found]
  exact List.length_pos_of_mem (mem_definedLabels.mpr member)

/-- Each call of a point defines a label in the method's own code. -/
theorem saving_labels {codes : List (Nat × PointCode)}
    (coded : ∀ entry ∈ codes, ∃ label, Insn.label label ∈ entry.2.save) (body : Code) (start : Nat) :
    ((List.range' start body.length).filter fun index => (codes.lookup index).isSome).length ≤
      (definedLabels (plan.spliceFrom codes start body)).length := by
  induction body generalizing start with
  | nil => exact Nat.zero_le _
  | cons insn rest ih =>
      have others := ih (start + 1)
      unfold spliceFrom at others ⊢
      rw [List.zipIdx_cons, List.flatMap_cons, definedLabels_append, List.length_append,
        List.length_cons, List.range'_succ, List.filter_cons]
      split
      · rename_i looked
        have here : 0 < (definedLabels (plan.replacement codes start insn)).length :=
          saving_label coded looked
        rw [List.length_cons]
        exact Nat.add_comm _ 1 ▸ Nat.add_le_add here others
      · exact Nat.le_trans others (Nat.le_add_left _ _)

/-- As many indices are looked up with success as there are entries, if no two entries share one. -/
theorem found_indices {codes : List (Nat × PointCode)} {length : Nat}
    (distinct : (codes.map Prod.fst).Nodup) (inside : ∀ index ∈ codes.map Prod.fst, index < length) :
    codes.length ≤
      ((List.range' 0 length).filter fun index => (codes.lookup index).isSome).length := by
  have among : codes.map Prod.fst ⊆
      (List.range' 0 length).filter fun index => (codes.lookup index).isSome := by
    intro index member
    obtain ⟨entry, listed, rfl⟩ := List.mem_map.mp member
    refine List.mem_filter.mpr ⟨?_, ?_⟩
    · simpa [← List.range_eq_range'] using inside entry.1 member
    · rw [lookup_of_mem distinct (show (entry.1, entry.2) ∈ codes from listed)]
      rfl
  have few := (List.subperm_of_subset distinct among).length_le
  rwa [List.length_map] at few

/-- A method whose instrumented code has distinct labels has no more than 2 ^ 31 points. -/
theorem points_few {body : Code} {monitorUses : List MonitorUse} {supply : LabelSupply}
    {labels : LabelTable}
    (counted : Detection.Counted body.length ⟨plan.points, monitorUses⟩)
    (collected : Analysis.labelTable ((plan.assemble body).run supply).1 = .ok labels) :
    plan.points.length ≤ 2 ^ 31 := by
  have few := labels_few (definedLabels_nodup collected)
  let middle := (plan.dispatcher.run supply).2
  let codes := ((plan.pointCodes plan.points).run middle).1
  have indices : codes.map Prod.fst = plan.points.map Point.index := pointCodes_index _ _
  have count : codes.length = plan.points.length := by
    simpa using congrArg List.length indices
  have coded : ∀ entry ∈ codes, ∃ label, Insn.label label ∈ entry.2.save := by
    intro entry member
    obtain ⟨point, supply, rfl⟩ : ∃ point supply,
        entry = (point.index, ((plan.pointCode point).run supply).1) := of_pointCodes member
    exact ⟨point.resume, saved_label plan point supply⟩
  have distinct : (codes.map Prod.fst).Nodup := by
    rw [indices]
    exact counted.ordered.imp fun less => Nat.ne_of_lt less
  have inside : ∀ index ∈ codes.map Prod.fst, index < body.length := by
    rw [indices]
    intro index member
    obtain ⟨point, listed, rfl⟩ := List.mem_map.mp member
    exact counted.searched point listed
  -- One label of each point in the code that restores frames, and one in the method's own code.
  have restoring : plan.points.length ≤
      (definedLabels (codes.flatMap fun entry => entry.2.restore)).length :=
    restoring_labels plan.points middle
  have saving : plan.points.length ≤ (definedLabels (plan.spliceFrom codes 0 body)).length :=
    count ▸ (found_indices distinct inside).trans (saving_labels coded body 0)
  have whole : ((plan.assemble body).run supply).1 =
      ((plan.parts.run supply).1.dispatcher ++ codes.flatMap (fun entry => entry.2.restore) ++
        (plan.parts.run supply).1.start) ++ plan.spliceFrom codes 0 body := rfl
  rw [whole] at few
  simp only [definedLabels_append, List.length_append] at few
  omega

end MethodPlan

namespace ClassFile

variable {hierarchy : Hierarchy} {settings : InstrumentSettings} {file output : ClassFile}
  {report : ClassReport} {plan : MethodPlan}

/-- A plan by which a method of the class is instrumented. -/
structure HasPlan (file : ClassFile) (hierarchy : Hierarchy) (settings : InstrumentSettings)
    (plan : MethodPlan) : Prop where
  proper : file.isInterface = false
  planned : ∃ method ∈ file.methods, method.isAbstract = false ∧
    ∃ supply, method.plan? hierarchy settings file.name = .ok (some (plan, supply))

/-- The code of a plan has been accepted, the plan has been reported, and a method has the code. -/
structure Progress.Covers (progress : Progress) (plan : MethodPlan) (body : Code)
    (supply : LabelSupply) : Prop where
  accepted : ∃ labels, Analysis.labelTable ((plan.assemble body).run supply).1 = .ok labels
  reported : ∃ finished, plan.report finished ∈ progress.reports
  coded : ∃ finished ∈ progress.methods, finished.isAbstract = false ∧
    finished.code = ((plan.assemble body).run supply).1

theorem instrumentNext_covers {owner : String} {progress next : Progress} {method : Method}
    {supply : LabelSupply} (concrete : method.isAbstract = false)
    (planned : method.plan? hierarchy settings owner = .ok (some (plan, supply)))
    (done : instrumentNext hierarchy settings owner progress method = .ok next) :
    next.Covers plan method.code supply := by
  unfold instrumentNext at done
  rw [if_neg (by simp [concrete])] at done
  obtain ⟨type, typed, done⟩ := Outcome.bind_eq_ok.mp done
  -- A method with a plan has a parameter for the context.
  have passed : (contextParameter? hierarchy type).isNone = false := by
    obtain ⟨type', _, _, typed', found, _⟩ := Method.plan?_some planned
    cases (Outcome.mapError_eq_ok.mp typed).symm.trans typed'
    obtain ⟨parameter, first, _⟩ := Option.bind_eq_some_iff.mp found
    rw [first]
    rfl
  rw [if_neg (by simp [passed])] at done
  unfold Method.instrument at done
  rw [planned] at done
  obtain ⟨result, instrumented, made⟩ := Outcome.bind_eq_ok.mp done
  obtain ⟨_, given, instrumented⟩ := Outcome.bind_eq_ok.mp instrumented
  cases given
  obtain ⟨finished, accepted, placed⟩ := Outcome.bind_eq_ok.mp instrumented
  cases placed
  cases made
  obtain ⟨known, analyzed, rfl⟩ := MethodPlan.finish_eq_ok accepted
  obtain ⟨labels, handlers, type, entry, prepared, _⟩ := Analysis.analyze_eq_ok.mp analyzed
  exact ⟨⟨labels, prepared.collected⟩, ⟨_, List.mem_append_right _ List.mem_cons_self⟩,
    ⟨_, List.mem_append_right _ List.mem_cons_self, concrete, rfl⟩⟩

theorem instrumentNext_keeps {owner : String} {progress next : Progress} {method : Method}
    (done : instrumentNext hierarchy settings owner progress method = .ok next) :
    progress.reports ⊆ next.reports ∧ progress.methods ⊆ next.methods := by
  have kept : ∀ progress : Progress, progress.reports ⊆ progress.reports ∧
      progress.methods ⊆ progress.methods ++ [method] :=
    fun _ => ⟨List.Subset.refl _, List.subset_append_left _ _⟩
  rcases instrumentNext_cases done with ⟨_, rfl⟩ | rfl | ⟨finished, report, _, _, rfl⟩
  · exact kept progress
  · exact kept progress
  · exact ⟨List.subset_append_left _ _, List.subset_append_left _ _⟩

/-- The report of a method counts its points, each of one kind. -/
theorem pointCount_report (plan : MethodPlan) (method : Method) :
    (plan.report method).pointCount = plan.points.length := by
  unfold MethodReport.pointCount MethodPlan.report
  dsimp only
  induction plan.points with
  | nil => rfl
  | cons point rest ih =>
      simp only [List.countP_cons, List.length_cons, ← ih]
      cases point.kind <;> simp [PointKind.isSuspend, PointKind.isInvoke, PointKind.guard?] <;> omega

/-- What instrumenting a class does for each plan. -/
theorem HasPlan.covered (plans : file.HasPlan hierarchy settings plan)
    (absent : file.findField? Protocol.markerField = none)
    (done : file.instrument hierarchy settings = .ok (output, report)) :
    plan.owner = file.name ∧ ∃ body supply,
      Detection.Counted body.length ⟨plan.points, plan.monitorUses⟩ ∧
      Progress.Covers ⟨output.fields, output.methods, report.methods, true⟩ plan body supply := by
  obtain ⟨method, inside, concrete, supply, planned⟩ := plans.planned
  obtain ⟨counted, owner⟩ := Method.plan?_counted planned
  unfold instrument at done
  rw [absent] at done
  dsimp only at done
  rw [if_neg (by simp [plans.proper])] at done
  obtain ⟨progress, folded, made⟩ := Outcome.bind_eq_ok.mp done
  cases made
  have covers := Outcome.foldlM_establishes
    (fun progress : Progress => progress.Covers plan method.code supply) inside
    (fun _ _ stepped => instrumentNext_covers concrete planned stepped)
    (fun _ _ _ covers stepped => ⟨covers.accepted,
      covers.reported.imp fun _ listed => (instrumentNext_keeps stepped).1 listed,
      covers.coded.imp fun _ coded => coded.imp_left fun listed =>
        (instrumentNext_keeps stepped).2 listed⟩) folded
  exact ⟨owner, method.code, supply, counted, covers.accepted, covers.reported, covers.coded⟩

/-- Every point of a plan by which a class is instrumented has a natural number, and the report of
the class lists it. -/
theorem HasPlan.lists (plans : file.HasPlan hierarchy settings plan)
    (absent : file.findField? Protocol.markerField = none)
    (done : file.instrument hierarchy settings = .ok (output, report)) {point : Point}
    (member : point ∈ plan.points) :
    plan.owner = file.name ∧ 0 ≤ point.code ∧ Lists report.methods plan.methodId point.code := by
  obtain ⟨owner, body, supply, counted, ⟨labels, collected⟩, ⟨finished, reported⟩, _⟩ :=
    plans.covered absent done
  have few := MethodPlan.points_few counted collected
  obtain ⟨place, found⟩ := List.mem_iff_getElem?.mp member
  have numbered : point.number = place := counted.numbered place point found
  have below : point.number < plan.points.length :=
    numbered ▸ (List.getElem?_eq_some_iff.mp found).1
  refine ⟨owner, ?_, _, reported, point.number, ?_, rfl, rfl⟩
  · rw [Int32.le_iff_toInt_le]
    have size : Int32.size = 4294967296 := rfl
    unfold Point.code
    rw [Int32.toInt_ofNat', Int.bmod_def, size]
    have zero : (0 : Int32).toInt = 0 := rfl
    omega
  · rwa [pointCount_report]

end ClassFile

end StackCoroutine
