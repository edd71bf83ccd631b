import StackCoroutine.Proofs.Instrument.Detected
import StackCoroutine.Proofs.Instrument.Restoring

/-!
What a plan rests on: the analysis of the method it was made for and the search that found its points.
Every point of such a plan can be typed.
-/

namespace StackCoroutine

namespace Point

/-- Categories of the stack entries at the call, the top first. -/
def entryKinds (point : Point) : List Kind := (Shape.ofFrame point.frame.kinds).stack

/-- Categories of the entries that the call takes. -/
def taken (point : Point) : List Kind := point.entryKinds.take point.argumentCount

/-- Categories of the entries that stay under them. -/
def below (point : Point) : List Kind := point.entryKinds.drop point.argumentCount

theorem taken_append_below (point : Point) : point.taken ++ point.below = point.entryKinds :=
  List.take_append_drop _ _

end Point

/-- A plan that was made for a method from its analysis. -/
structure MethodPlan.Grounded (plan : MethodPlan) (hierarchy : Hierarchy) (owner : String)
    (method : Method) (contextSlot : UInt16) (known : Analysis) (labels : LabelTable)
    (handlers : List Analysis.Handler) (entry : Frame) : Prop where
  prepared : Analysis.Prepared owner method labels handlers plan.result entry
  sound : Analysis.Sound Frame.Covers
    ⟨hierarchy, method.code.toArray, labels, handlers, plan.result.kind⟩ entry ⟨known, []⟩
  proper : Analysis.Everywhere
    (fun frame => frame.kinds.Proper ∧ frame.locals.length = method.maxLocals.toNat) known
  entryContext : (contextSlot.toNat, .ref) ∈ entry.facts
  context : Analysis.Everywhere (fun frame => (contextSlot.toNat, .ref) ∈ frame.facts) known
  /-- References have names of types. -/
  named : Analysis.Everywhere (fun frame => ∀ name, .reference name ∈ frame.locals ++ frame.stack →
    ∃ type, ValueType.ofInternalName name = .ok type) known
  detected : ∀ point ∈ plan.points, Detected hierarchy method.code known point
  ordered : (plan.points.map Point.index).Pairwise (· < ·)
  /-- The suspend primitive is called on a context. -/
  received : ∀ point ∈ plan.points, point.kind = .suspend → point.dispatch.hasReceiver = true
  serves : plan.layout.Serves
    (MethodPlan.slotRequest method contextSlot ⟨plan.points, plan.monitorUses⟩)

namespace MethodPlan.Grounded

variable {plan : MethodPlan} {hierarchy : Hierarchy} {owner : String} {method : Method}
  {contextSlot : UInt16} {known : Analysis} {labels : LabelTable}
  {handlers : List Analysis.Handler} {entry : Frame}

theorem mapM_kind_length {types : List ValueType} {kinds : List Kind}
    (mapped : types.mapM ValueType.kind = some kinds) : kinds.length = types.length := by
  induction types generalizing kinds with
  | nil =>
      cases mapped
      rfl
  | cons first rest ih =>
      rw [List.mapM_cons] at mapped
      obtain ⟨kind, _, mapped⟩ := Option.bind_eq_some_iff.mp mapped
      obtain ⟨others, tail, mapped⟩ := Option.bind_eq_some_iff.mp mapped
      cases mapped
      simp [ih tail]

/-- What was known of local slots and stack by category. -/
theorem entries (grounded : plan.Grounded hierarchy owner method contextSlot known labels handlers
    entry) {index : Nat} {frame : Frame} (found : known.frame? index = some frame) :
    frame.stack.map FrameValue.kind = (Shape.ofFrame frame.kinds).stack.map some :=
  Shape.ofFrame_stack (grounded.proper index frame found).1.stack

/-- The call takes what lies on top of the stack and leaves its result there. -/
theorem called (grounded : plan.Grounded hierarchy owner method contextSlot known labels handlers
    entry) {point : Point} (member : point ∈ plan.points) :
    Signature.ofInsn plan.result.kind point.call = some ⟨point.taken, point.resultKind⟩ ∧
      point.argumentCount = point.taken.length ∧
      (point.kind = .suspend → point.taken = [.ref] ∧ point.resultKind = none) := by
  obtain ⟨at_index, framed, typed, suspends, _⟩ := grounded.detected point member
  obtain ⟨after, stepped, _⟩ := grounded.sound.passes (by simpa using at_index) framed
  obtain ⟨signature, found, applied⟩ := Option.bind_eq_some_iff.mp
    (show (Signature.ofInsn plan.result.kind point.call).bind _ = _ from stepped)
  have call : (point.method.type.toOption.bind
      (Signature.ofCall point.dispatch.hasReceiver)) = some signature := found
  rw [typed] at call
  obtain ⟨kinds, mapped, made⟩ := Option.bind_eq_some_iff.mp
    (show (point.type.parameters.mapM ValueType.kind).bind _ = _ from call)
  cases made
  obtain ⟨rest, taken, _⟩ := Option.map_eq_some_iff.mp applied
  have stack := (grounded.entries framed).symm.trans (KindFrame.take_eq_append taken)
  have count : point.argumentCount =
      (kinds.reverse ++ if point.dispatch.hasReceiver then [Kind.ref] else []).length := by
    have length := mapM_kind_length mapped
    unfold Point.argumentCount
    split <;> simp [length]
  have takes : point.taken =
      kinds.reverse ++ if point.dispatch.hasReceiver then [Kind.ref] else [] := by
    have top := congrArg (List.take point.argumentCount) stack
    rw [← List.map_take, List.take_left' (by rw [List.length_map, count])] at top
    exact List.map_injective_iff.mpr (Option.some_injective _) top
  refine ⟨?_, ?_, ?_⟩
  · rw [takes]
    exact found
  · rw [takes, count]
  · intro suspend
    have type := Detection.isSuspendCall_type (suspends suspend)
    rw [typed] at type
    have same := Except.ok.inj type
    rw [same] at mapped
    cases mapped
    rw [takes, grounded.received point member suspend]
    exact ⟨rfl, by unfold Point.resultKind; rw [same]; rfl⟩

/-- All points can be typed. -/
theorem typable (grounded : plan.Grounded hierarchy owner method contextSlot known labels handlers
    entry) {point : Point} (member : point ∈ plan.points) :
    plan.Typable (point.frame.facts ∪ plan.layout.facts) point point.taken point.below := by
  have framed := (grounded.detected point member).framed
  obtain ⟨proper, slots⟩ := grounded.proper _ _ framed
  obtain ⟨called, arguments, suspended⟩ := grounded.called member
  have serves := grounded.serves
  have length : point.frame.kinds.locals.length = method.maxLocals.toNat := by
    simpa [Frame.kinds] using slots
  have requested : point.frame ∈ plan.points.map Point.frame := List.mem_map_of_mem member
  have small : method.maxLocals.toNat ≤ 65535 := by
    have bound := method.maxLocals.toNat_lt
    omega
  -- The variables are those that the layout serves, and this point is among its requests.
  exact {
    toPlaced := serves.placed proper length (grounded.context _ _ framed)
    own := Set.subset_union_left
    arrays := by
      rintro fact (⟨kind, present, rfl⟩ | ⟨kind, present, rfl⟩)
      · exact Or.inr ⟨_, (serves.locals _ requested kind present).1, rfl⟩
      · exact Or.inr ⟨_, (serves.stack _ requested kind present).1, rfl⟩
    localsArray := fun kind present => (serves.locals _ requested kind present).2
    stackArray := fun kind present => (serves.stack _ requested kind present).2
    small := slots ▸ small
    named := grounded.named _ _ framed
    contextKnown := by
      rw [serves.context]
      exact grounded.context _ _ framed
    called
    entries := by
      rw [point.taken_append_below]
      exact grounded.entries framed
    arguments
    suspended
    cached := by
      intro other kind result
      have invoked : (!point.kind.isSuspend) = true := by
        cases which : point.kind with
        | suspend => exact absurd which other
        | _ => rfl
      obtain ⟨var, found, has, listed⟩ := serves.cache kind (List.mem_filterMap.mpr
        ⟨point, List.mem_filter.mpr ⟨member, invoked⟩, result⟩)
      exact ⟨var, found, has, Or.inr ⟨var, listed, rfl⟩⟩
    thrown := by
      intro rethrow block guarded
      obtain ⟨var, found, has, listed⟩ := serves.throwable (List.any_eq_true.mpr
        ⟨point, member, by simp [guarded, PointKind.guard?]⟩)
      exact ⟨var, found, has, Or.inr ⟨var, listed, rfl⟩⟩ }

end MethodPlan.Grounded

end StackCoroutine
