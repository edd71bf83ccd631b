import StackCoroutine.Proofs.Instrument.Scanning
import StackCoroutine.Proofs.Instrument.Splicing

/-!
From the acceptance of a method to what is known of its instrumented code: the plan comes from the
analysis of the method and from the search for its points, and the code is put together from it.
-/

namespace StackCoroutine

/-- Labels for all continuation points of a method and all code generated for them. -/
def Method.HasLabels (method : Method) : Prop :=
  (LabelSupply.above method.code method.tryBlocks).number + 6 * method.code.length < 2 ^ 32

/-- What a method was planned with. -/
structure MethodPlan.Plans (plan : MethodPlan) (hierarchy : Hierarchy) (owner : String)
    (method : Method) (contextSlot : UInt16) (known : Analysis) : Prop where
  analyzed : Analysis.analyze hierarchy owner method = .ok known
  typed : ∃ type, method.type = .ok type ∧ plan.result = type.result ∧
    contextSlot? hierarchy method type = some contextSlot
  named : plan.owner = owner
  detected : ∀ point ∈ plan.points, Detected hierarchy method.code known point
  ordered : (plan.points.map Point.index).Pairwise (· < ·)
  numbered : ∀ (number : Nat) point, plan.points[number]? = some point → point.number = number
  few : plan.points.length ≤ method.code.length
  apart : (plan.points.flatMap Point.labels).Nodup
  layout : SlotLayout.ofRequest?
    (MethodPlan.slotRequest method contextSlot ⟨plan.points, plan.monitorUses⟩) = some plan.layout

/-- How a plan that is made comes about. -/
theorem Method.plan?_some {hierarchy : Hierarchy} {settings : InstrumentSettings} {owner : String}
    {method : Method} {plan : MethodPlan} {supply : LabelSupply}
    (planned : method.plan? hierarchy settings owner = .ok (some (plan, supply))) :
    ∃ type contextSlot known, method.type = .ok type ∧
      contextSlot? hierarchy method type = some contextSlot ∧
      Analysis.analyze hierarchy owner method = .ok known ∧
      (Detection.ofMethod hierarchy owner method known).run.run
        (LabelSupply.above method.code method.tryBlocks) =
          (.ok ⟨plan.points, plan.monitorUses⟩, supply) ∧
      plan.points ≠ [] ∧
      SlotLayout.ofRequest? (MethodPlan.slotRequest method contextSlot
        ⟨plan.points, plan.monitorUses⟩) = some plan.layout ∧
      plan.owner = owner ∧ plan.result = type.result := by
  unfold Method.plan? at planned
  obtain ⟨type, typed, planned⟩ := Outcome.bind_eq_ok.mp planned
  split at planned
  · cases Outcome.pure_eq_ok.mp planned
  rename_i contextSlot passed
  obtain ⟨known, analyzed, planned⟩ := Outcome.bind_eq_ok.mp planned
  rcases searched : (Detection.ofMethod hierarchy owner method known).run.run
    (LabelSupply.above method.code method.tryBlocks) with ⟨outcome, last⟩
  dsimp only at planned
  rw [searched] at planned
  obtain ⟨detection, rfl, made⟩ := Outcome.bind_eq_ok.mp planned
  split at made
  · cases Outcome.pure_eq_ok.mp made
  rename_i some_point
  split at made
  · exact absurd made Outcome.throw_ne_ok
  rename_i layout requested
  cases Outcome.pure_eq_ok.mp made
  exact ⟨type, contextSlot, known, Outcome.mapError_eq_ok.mp typed, passed,
    Outcome.mapError_eq_ok.mp analyzed, searched, by simpa using some_point, requested, rfl, rfl⟩

/-- The code of an instrumented method has been analysed, and nothing but the stack height is changed
then. -/
theorem MethodPlan.finish_eq_ok {hierarchy : Hierarchy} {owner label : String}
    {method finished : Method} (accepted : finish hierarchy owner label method = .ok finished) :
    ∃ known, Analysis.analyze hierarchy owner method = .ok known ∧
      finished = { method with maxStack := UInt16.ofNat (min known.maxStack 65535) } := by
  obtain ⟨known, analyzed, verified⟩ := Outcome.bind_eq_ok.mp accepted
  obtain ⟨_, _, made⟩ := Outcome.bind_eq_ok.mp verified
  cases Outcome.pure_eq_ok.mp made
  exact ⟨known, Outcome.mapError_eq_ok.mp analyzed, rfl⟩

/-- A method is instrumented by a plan. -/
theorem Method.instrument_eq_ok {hierarchy : Hierarchy} {settings : InstrumentSettings}
    {owner : String} {method finished : Method} {report : MethodReport}
    (done : method.instrument hierarchy settings owner = .ok (some (finished, report))) :
    ∃ plan supply, method.plan? hierarchy settings owner = .ok (some (plan, supply)) ∧
      MethodPlan.finish hierarchy owner (method.label owner) (plan.rewrite method supply) =
        .ok finished ∧ report = plan.report finished := by
  obtain ⟨planned?, planned, done⟩ := Outcome.bind_eq_ok.mp done
  rcases planned? with _ | ⟨plan, supply⟩
  · cases Outcome.pure_eq_ok.mp done
  obtain ⟨completed, accepted, made⟩ := Outcome.bind_eq_ok.mp done
  cases Outcome.pure_eq_ok.mp made
  exact ⟨plan, supply, planned, accepted, rfl⟩

/-- The try blocks of a method that has been analysed are between labels of its code. -/
theorem Analysis.analyze_delimited {hierarchy : Hierarchy} {owner : String} {method : Method}
    {known : Analysis} (analyzed : analyze hierarchy owner method = .ok known) :
    ∀ block ∈ method.tryBlocks, ∃ start stop : Nat,
      method.code[start]? = some (.label block.start) ∧
        method.code[stop]? = some (.label block.stop) := by
  obtain ⟨labels, handlers, _, _, prepared, _⟩ := analyze_eq_ok.mp analyzed
  intro block listed
  obtain ⟨handler, _, resolved⟩ := Outcome.mapM_mem_of_mem prepared.resolved listed
  obtain ⟨start, stop, _⟩ := resolveHandler_eq_ok resolved
  exact ⟨_, _, (labelTable_resolve prepared.collected _ _).mp start,
    (labelTable_resolve prepared.collected _ _).mp stop⟩

/-- A plan that is made comes from the analysis and from the search for points. -/
theorem Method.plan?_plans {hierarchy : Hierarchy} {settings : InstrumentSettings} {owner : String}
    {method : Method} {plan : MethodPlan} {supply : LabelSupply} (room : method.HasLabels)
    (planned : method.plan? hierarchy settings owner = .ok (some (plan, supply))) :
    ∃ contextSlot known, plan.Plans hierarchy owner method contextSlot known := by
  obtain ⟨type, contextSlot, known, typed, passed, analyzed, searched, _, requested, named, result⟩ :=
    plan?_some planned
  obtain ⟨labels, handlers, _, entry, prepared, _⟩ := Analysis.analyze_eq_ok.mp analyzed
  have comes := @Detection.ofMethod_comes hierarchy owner method known labels prepared.collected
    (LabelSupply.above method.code method.tryBlocks) room
  rw [searched] at comes
  obtain ⟨valid, _⟩ := comes
  exact ⟨contextSlot, known, analyzed, ⟨type, typed, result, passed⟩, named, valid.detected,
    valid.ordered, valid.numbered, valid.few, valid.labels.distinct, requested⟩

namespace MethodPlan.Plans

variable {plan : MethodPlan} {hierarchy : Hierarchy} {owner : String} {method : Method}
  {contextSlot : UInt16} {known : Analysis}

theorem serves (plans : plan.Plans hierarchy owner method contextSlot known) :
    plan.layout.Serves
      (MethodPlan.slotRequest method contextSlot ⟨plan.points, plan.monitorUses⟩) :=
  SlotLayout.ofRequest?_serves plans.layout

/-- The context is passed in one of the method's own slots. -/
theorem contextSlot_lt (plans : plan.Plans hierarchy owner method contextSlot known) :
    contextSlot.toNat < method.maxLocals.toNat := by
  obtain ⟨type, typed, _, passed⟩ := plans.typed
  obtain ⟨labels, handlers, result, entry, prepared, _⟩ := Analysis.analyze_eq_ok.mp plans.analyzed
  have context := contextSlot?_known typed passed prepared.entered
  obtain ⟨_, _, _, slots, _⟩ := Frame.entry_eq_ok prepared.entered
  rw [Frame.mem_facts] at context
  obtain ⟨value, found, _⟩ := Option.bind_eq_some_iff.mp context
  exact slots ▸ (List.getElem?_eq_some_iff.mp found).1

/-- Every point has the code of a call in its place. -/
theorem calls (plans : plan.Plans hierarchy owner method contextSlot known) (supply : LabelSupply) :
    ∀ entry ∈ ((plan.pointCodes plan.points).run supply).1,
      ∃ dispatch callee, method.code[entry.1]? = some (.invoke dispatch callee) := by
  intro entry member
  have index := List.mem_map_of_mem (f := Prod.fst) member
  rw [MethodPlan.pointCodes_index] at index
  obtain ⟨point, listed, same⟩ := List.mem_map.mp index
  exact ⟨point.dispatch, point.method, same ▸ (plans.detected point listed).at_index⟩

/-- The instrumented method, ready to run, is put together from its parts. -/
theorem assembled (plans : plan.Plans hierarchy owner method contextSlot known)
    {supply : LabelSupply} {rewritten : Method} {prepared : PreparedMethod}
    (code : rewritten.code = ((plan.assemble method.code).run supply).1)
    (blocks : rewritten.tryBlocks = plan.guardBlocks ++ method.tryBlocks)
    (made : PreparedMethod.prepare owner rewritten = .ok prepared) :
    plan.Assembled (plan.parts.run supply).1 method.code method.tryBlocks prepared := by
  obtain ⟨same, ranges, ranged⟩ := PreparedMethod.prepare_ranges made
  have codes : (plan.parts.run supply).1.codes =
      ((plan.pointCodes plan.points).run (plan.dispatcher.run supply).2).1 := rfl
  refine {
    code := same.trans code
    resolves := PreparedMethod.prepare_resolves made
    ranges := ?_
    ranged := ?_
    labelled := Analysis.analyze_delimited plans.analyzed
    coded := ?_
    apart := plans.apart
    calls := ?_
    distinct := ?_ }
  · rw [← blocks, same]
    exact ranges
  · rw [← blocks, same]
    exact ranged
  · intro point member
    rw [codes]
    exact MethodPlan.mem_pointCodes member _
  · rw [codes]
    exact plans.calls _
  · rw [codes, MethodPlan.pointCodes_index]
    exact plans.ordered.imp fun less => Nat.ne_of_lt less

end MethodPlan.Plans

end StackCoroutine
