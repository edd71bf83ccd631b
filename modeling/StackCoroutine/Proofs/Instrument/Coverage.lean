import StackCoroutine.Proofs.Instrument.Labels

/-!
What an instrumented method consists of. Behind the dispatcher and the restoring code there is, for
each instruction of the method and in their order, the instruction itself, the saving code of a point
or a tracked monitor instruction. A try block of the method covers the code for the instructions that
it covered, and a block around a repeated call covers that call. The labels of generated code are
defined once and are no labels of the method.
-/

namespace StackCoroutine

namespace MethodPlan

/-- What stands in an instrumented method for an instruction at an index. -/
inductive Stands (plan : MethodPlan) (codes : List (Nat × PointCode)) (index : Nat) :
    Insn → Code → Prop where
  | saved {dispatch callee code} : (index, code) ∈ codes →
      Stands plan codes index (.invoke dispatch callee) code.save
  | entered {locks} : plan.layout.locks = some locks →
      Stands plan codes index .monitorEnter locks.enter
  | exited {locks} : plan.layout.locks = some locks →
      Stands plan codes index .monitorExit locks.exit
  | kept {insn} : index ∉ codes.map Prod.fst → insn.isMonitor = false →
      Stands plan codes index insn [insn]

/-- The label is used by code that is generated, or it delimits a block that is. -/
inductive Brings (plan : MethodPlan) (parts : Parts) (pieces : List Code) (body : Code) :
    Label → Prop where
  | opening {label} : label ∈ usedLabels parts.opening → Brings plan parts pieces body label
  | piece {index : Nat} {insn piece label} : body[index]? = some insn → pieces[index]? = some piece →
      piece ≠ [insn] → label ∈ usedLabels piece → Brings plan parts pieces body label
  | block {block label} : block ∈ plan.guardBlocks → label ∈ block.labels →
      Brings plan parts pieces body label

end MethodPlan

/-- Labels of the code and of the try blocks. -/
def Method.labels (method : Method) : List Label :=
  usedLabels method.code ++ method.tryBlocks.flatMap TryBlock.labels

/-- Label numbers do not overflow, whatever code is generated for the method. -/
def Method.LeavesLabels (method : Method) : Prop :=
  ∀ label ∈ method.labels, label.number.toNat + (13 * method.code.length + 5) + 1 < 2 ^ 32

/-- A label is defined in one place. -/
theorem Analysis.labelTable_unique {code : Code} {labels : LabelTable}
    (collected : labelTable code = .ok labels) {label : Label} {first second : Nat}
    (here : code[first]? = some (.label label)) (there : code[second]? = some (.label label)) :
    first = second := by
  have resolves := labelTable_resolve collected label
  exact Except.ok.inj (((resolves first).mpr here).symm.trans ((resolves second).mpr there))

namespace MethodPlan

namespace Joined

variable {plan : MethodPlan} {parts : Parts} {body code : Code} {index place : Nat} {insn : Insn}

variable {method finished : Method} {block : TryBlock}

/-- The block around a repeated call covers its label and the call, which is in the restoring code of
the point. -/
theorem repeated (joined : plan.Joined parts method.code finished.code) {point : Point}
    {rethrow : Label} {guard : TryBlock} (kind : point.kind = .guardedInvoke rethrow guard)
    {supply : LabelSupply} {code : PointCode} (coded : code = ((plan.pointCode point).run supply).1)
    (member : (point.index, code) ∈ parts.codes) : ∃ first place,
      code.restore <+: finished.code.drop first ∧ first ≤ place ∧
      place + 2 < first + code.restore.length ∧
      first + code.restore.length ≤ parts.opening.length ∧
      finished.code[place]? = some (.label guard.start) ∧
      finished.code[place + 1]? = some point.call ∧
      ∀ other, finished.Guards guard other ↔ other = place ∨ other = place + 1 := by
  obtain ⟨first, begins, early⟩ := joined.restored member
  obtain ⟨front, back, restores⟩ := plan.restore_repeats kind supply
  rw [← coded] at restores
  have has : [.label guard.start, point.call, .label guard.stop] <+:
      finished.code.drop (first + front.length) := by
    obtain ⟨rest, split⟩ := begins
    rw [← List.drop_drop, ← split, restores, List.append_assoc, List.drop_left, List.append_assoc]
    exact List.prefix_append _ _
  have length : code.restore.length = front.length + (3 + back.length) := by
    rw [restores, List.length_append, List.length_append]
    rfl
  have starts := @getElem?_of_begins _ _ _ 0 _ has rfl
  have calls := @getElem?_of_begins _ _ _ 1 _ has rfl
  have stops := @getElem?_of_begins _ _ _ 2 _ has rfl
  refine ⟨first, first + front.length, begins, Nat.le_add_right _ _, by omega, early, starts, calls,
    ?_⟩
  intro other
  constructor
  · rintro ⟨low, high, from_label, to_label, after, before⟩
    obtain rfl := joined.unique from_label starts
    obtain rfl := joined.unique to_label stops
    omega
  · intro near
    exact ⟨_, _, starts, stops, by omega, by omega⟩

end Joined

/-! ### The code for the instructions -/

/-- The code for each instruction of a method. -/
def pieces (plan : MethodPlan) (codes : List (Nat × PointCode)) (body : Code) : List Code :=
  body.zipIdx.map fun item => plan.replacement codes item.2 item.1

variable {plan : MethodPlan} {parts : Parts} {body : Code} {index place : Nat}

end MethodPlan

/-! ### Instrumented methods -/

/-- No more points are found than there are instructions. -/
theorem Detection.Counted.few {index : Nat} {found : Detection} (counted : found.Counted index) :
    found.points.length ≤ index := by
  have distinct : (found.points.map Point.index).Nodup :=
    counted.ordered.imp fun less => Nat.ne_of_lt less
  have inside : found.points.map Point.index ⊆ List.range index := by
    intro place member
    obtain ⟨point, listed, rfl⟩ := List.mem_map.mp member
    exact List.mem_range.mpr (counted.searched point listed)
  have few := (List.subperm_of_subset distinct inside).length_le
  rwa [List.length_map, List.length_range] at few

namespace MethodPlan

variable {plan : MethodPlan} {hierarchy : Hierarchy} {owner : String} {method finished : Method}
  {known : Analysis} {supply : LabelSupply}

/-- What is known of a plan whatever the numbers of labels: it comes from a search of the method and
has variables for monitors if there are monitor instructions. -/
structure Found (plan : MethodPlan) (hierarchy : Hierarchy) (owner : String) (method : Method)
    (known : Analysis) (supply : LabelSupply) : Prop where
  analyzed : Analysis.analyze hierarchy owner method = .ok known
  counted : Detection.Counted method.code.length ⟨plan.points, plan.monitorUses⟩
  scanned : ∃ labels, Analysis.labelTable method.code = .ok labels ∧
    Detection.Scanned (.ofLabels hierarchy owner method known labels) method.code
      (LabelSupply.above method.code method.tryBlocks) method.code.length
      ⟨plan.points, plan.monitorUses⟩ supply
  locked : plan.layout.locks.isSome = !plan.monitorUses.isEmpty

/-- Each point has its code, in their order. -/
theorem pointCodes_made (plan : MethodPlan) (points : List Point) (supply : LabelSupply) :
    List.Forall₂ (fun point entry => entry.1 = point.index ∧
      ∃ supply, entry.2 = ((plan.pointCode point).run supply).1) points
      ((plan.pointCodes points).run supply).1 := by
  induction points generalizing supply with
  | nil => exact .nil
  | cons point rest ih =>
      rw [pointCodes_run]
      exact .cons ⟨rfl, supply, rfl⟩ (ih _)

namespace Found

theorem tracked (found : plan.Found hierarchy owner method known supply) :
    ∀ insn ∈ method.code, insn.isMonitor = true → ∃ locks, plan.layout.locks = some locks := by
  intro insn member monitor
  obtain ⟨_, _, scanned⟩ := found.scanned
  -- The use that the search notes is why there are variables for monitors.
  obtain ⟨place, there⟩ := List.mem_iff_getElem?.mp member
  obtain ⟨use, noted, _⟩ :=
    scanned.monitor_noted (List.getElem?_eq_some_iff.mp there).1 there monitor
  apply Option.isSome_iff_exists.mp
  rw [found.locked]
  cases uses : plan.monitorUses with
  | nil =>
      rw [uses] at noted
      cases noted
  | cons => rfl

theorem joined (found : plan.Found hierarchy owner method known supply)
    {labels : LabelTable} (collected : Analysis.labelTable finished.code = .ok labels)
    (same : finished.code = ((plan.assemble method.code).run supply).1) :
    plan.Joined (plan.parts.run supply).1 method.code finished.code where
  whole := same
  calls := by
    intro entry member
    obtain ⟨_, _, scanned⟩ := found.scanned
    obtain ⟨point, listed, here, _⟩ := forall₂_exists (plan.pointCodes_made plan.points _).flip member
    exact ⟨point.dispatch, point.method, here ▸ (scanned.point_kind point listed).1⟩
  distinct := by
    show (((plan.pointCodes plan.points).run _).1.map Prod.fst).Nodup
    rw [pointCodes_index]
    exact found.counted.ordered.imp fun less => Nat.ne_of_lt less
  unique := Analysis.labelTable_unique collected

end Found

/-- A label that generated code brings is used by generated code, or it was set aside for a point. -/
theorem Brings.among {parts : Parts} {pieces : List Code} {body : Code} {label : Label}
    (stands : List.Forall₂ (fun item piece => plan.Stands parts.codes item.2 item.1 piece)
      body.zipIdx pieces) (brings : plan.Brings parts pieces body label) :
    label ∈ usedLabels parts.generated ++ plan.points.flatMap Point.labels := by
  have split : usedLabels parts.generated = usedLabels parts.opening ++
      usedLabels (parts.codes.flatMap fun entry => entry.2.save) := usedLabels_append _ _
  rw [split]
  cases brings with
  | opening used => exact List.mem_append_left _ (List.mem_append_left _ used)
  | @piece index insn piece _ found there changed used =>
      have here : plan.Stands parts.codes index insn piece := by
        obtain ⟨inside, rfl⟩ := List.getElem?_eq_some_iff.mp found
        obtain ⟨inside', rfl⟩ := List.getElem?_eq_some_iff.mp there
        have pair := stands.get (by rwa [List.length_zipIdx]) inside'
        simpa using pair
      cases here with
      | saved member =>
          obtain ⟨other, inside, named⟩ := List.mem_flatMap.mp used
          refine List.mem_append_left _ (List.mem_append_right _ ?_)
          exact List.mem_flatMap.mpr ⟨other, List.mem_flatMap.mpr ⟨_, member, inside⟩, named⟩
      | entered | exited => cases used
      | kept => exact absurd rfl changed
  | block member named =>
      obtain ⟨point, listed, rethrow, kind⟩ := Assembled.mem_guardBlocks.mp member
      refine List.mem_append_right _ (List.mem_flatMap.mpr ⟨point, listed, ?_⟩)
      unfold Point.labels
      rw [kind]
      exact List.mem_cons_of_mem _ (List.mem_cons_of_mem _ (List.mem_cons_of_mem _ named))

/-- All labels of generated code come from the supply above the labels of the method. -/
theorem Found.fresh (found : plan.Found hierarchy owner method known supply) {count : Nat}
    (few : count ≤ 5 + 7 * plan.points.length) {label : Label}
    (taken : label ∈ plan.points.flatMap Point.labels ++ supply.handOut count)
    (room : method.LeavesLabels) : label ∉ method.labels := by
  obtain ⟨_, _, scanned⟩ := found.scanned
  obtain ⟨early, few', after, handed⟩ := scanned.handed_out
  have points := found.counted.few
  -- The search takes its labels first, and the code takes those that follow.
  have given : label ∈ (LabelSupply.above method.code method.tryBlocks).handOut (early + count) := by
    rw [LabelSupply.handOut_add, ← after]
    rcases List.mem_append.mp taken with own | new
    · obtain ⟨point, listed, mine⟩ := List.mem_flatMap.mp own
      exact List.mem_append_left _ (handed point listed mine)
    · exact List.mem_append_right _ new
  intro used
  refine LabelSupply.above_fresh (fun other there => ?_) used given
  have bound := room other there
  dsimp only at points
  omega

end MethodPlan

namespace Method

variable {hierarchy : Hierarchy} {settings : InstrumentSettings} {owner : String}
  {method finished : Method} {report : MethodReport}

end Method

end StackCoroutine
