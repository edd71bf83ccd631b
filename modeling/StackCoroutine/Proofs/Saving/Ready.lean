import StackCoroutine.Proofs.Instrument.Planned
import StackCoroutine.Proofs.Saving.Housing
import StackCoroutine.Proofs.Saving.Routines

/-!
Instrumented methods that are ready to run. The layout of such a method has room for the frames of all
its points, and the code for its points stands where the dispatcher and its own code lead.
-/

namespace StackCoroutine

open SlotLayout (presentKinds)

/-- A method has been planned, put together and prepared, and its operand stack is no higher than
array indices can tell. -/
structure MethodPlan.Ready (plan : MethodPlan) (hierarchy : Hierarchy) (owner : String)
    (method : Method) (contextSlot : UInt16) (known : Analysis) (supply : LabelSupply)
    (prepared : PreparedMethod) : Prop where
  plans : plan.Plans hierarchy owner method contextSlot known
  assembled : plan.Assembled (plan.parts.run supply).1 method.code method.tryBlocks prepared
  height : ∀ point ∈ plan.points, point.frame.stack.length < 2 ^ 31
  labels : method.HasLabels

namespace MethodPlan.Ready

variable {plan : MethodPlan} {hierarchy : Hierarchy} {owner : String} {method : Method}
  {contextSlot : UInt16} {known : Analysis} {supply : LabelSupply} {prepared : PreparedMethod}

/-- What instrumentation accepts is ready once it is prepared. -/
theorem of_instrument {settings : InstrumentSettings} (labels : method.HasLabels)
    (planned : method.plan? hierarchy settings owner = .ok (some (plan, supply)))
    {finished : Method}
    (accepted : MethodPlan.finish hierarchy owner (method.label owner)
      (plan.rewrite method supply) = .ok finished)
    (made : PreparedMethod.prepare owner finished = .ok prepared)
    (height : ∀ point ∈ plan.points, point.frame.stack.length < 2 ^ 31) :
    ∃ contextSlot known, plan.Ready hierarchy owner method contextSlot known supply prepared := by
  obtain ⟨contextSlot, known, plans⟩ := Method.plan?_plans labels planned
  obtain ⟨_, _, rfl⟩ := MethodPlan.finish_eq_ok accepted
  exact ⟨contextSlot, known, plans, plans.assembled rfl rfl made, height, labels⟩

theorem spread (ready : plan.Ready hierarchy owner method contextSlot known supply prepared) :
    plan.layout.Spread method.maxLocals.toNat :=
  SlotLayout.ofRequest?_spread ready.plans.layout

theorem equipped (ready : plan.Ready hierarchy owner method contextSlot known supply prepared) :
    plan.Equipped method.maxLocals.toNat := by
  have serves := ready.plans.serves
  refine ⟨ready.spread, ?_, ?_, serves.savedFrame, serves.container, ?_⟩
  · rw [serves.context]
    exact ready.plans.contextSlot_lt
  · rw [serves.context]
  · intro locks given
    obtain ⟨state, counter, bound, _⟩ := serves.locks locks given
    exact ⟨state, counter, bound⟩

/-- The layout has room for the frame of every point. -/
theorem houses (ready : plan.Ready hierarchy owner method contextSlot known supply prepared)
    {point : Point} (member : point ∈ plan.points) :
    plan.layout.Houses method.maxLocals.toNat point.frame := by
  have proper := Analysis.analyze_proper ready.plans.analyzed
  obtain ⟨proper', slots⟩ := proper _ _ (ready.plans.detected point member).framed
  have bounded : SlotRequest.Bounded (MethodPlan.slotRequest method contextSlot
      ⟨plan.points, plan.monitorUses⟩) := by
    intro frame asked
    obtain ⟨other, there, rfl⟩ := List.mem_map.mp asked
    exact ⟨(proper _ _ (ready.plans.detected other there).framed).2.le, ready.height other there⟩
  have houses : plan.layout.Houses method.maxLocals.toNat
      (point.frame.padded method.maxLocals.toNat) :=
    SlotLayout.ofRequest?_houses ready.plans.layout bounded (List.mem_map_of_mem member)
      ⟨_, Shape.ofFrame_stack proper'.stack⟩
  have same : point.frame.padded method.maxLocals.toNat = point.frame :=
    slots ▸ point.frame.padded_self
  rwa [same] at houses

/-- There is a variable for the result of every call that can be suspended. -/
theorem caches (ready : plan.Ready hierarchy owner method contextSlot known supply prepared)
    {point : Point} (member : point ∈ plan.points) (called : point.kind ≠ .suspend) {kind : Kind}
    (result : point.resultKind = some kind) :
    ∃ var, plan.layout.varFor? (.cache kind) = some var ∧ var.kind = kind := by
  have invoked : (!point.kind.isSuspend) = true := by
    cases which : point.kind with
    | suspend => exact absurd which called
    | _ => rfl
  obtain ⟨var, found, has, _⟩ := ready.plans.serves.cache kind (List.mem_filterMap.mpr
    ⟨point, List.mem_filter.mpr ⟨member, invoked⟩, result⟩)
  exact ⟨var, found, has⟩

/-- There is a variable for the exception of a guarded call. -/
theorem throwable (ready : plan.Ready hierarchy owner method contextSlot known supply prepared)
    {point : Point} (member : point ∈ plan.points) {rethrow : Label} {block : TryBlock}
    (guarded : point.kind = .guardedInvoke rethrow block) :
    ∃ var, plan.layout.varFor? .throwable = some var ∧ var.kind = .ref := by
  obtain ⟨var, found, has, _⟩ := ready.plans.serves.throwable (List.any_eq_true.mpr
    ⟨point, member, by simp [guarded, PointKind.guard?]⟩)
  exact ⟨var, found, has⟩

end MethodPlan.Ready

end StackCoroutine
