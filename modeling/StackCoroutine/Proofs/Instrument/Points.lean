import StackCoroutine.Proofs.Instrument.Calm
import StackCoroutine.Proofs.Instrument.Sequences

/-!
Typing of the code that stands in the place of a call at which the coroutine can be suspended. It goes
from the frame of the call to the frame after it, as the call itself does.
-/

namespace StackCoroutine

/-- Labels around a guarded call. -/
def PointKind.labels : PointKind → List Label
  | .guardedInvoke rethrow block => [rethrow, block.start, block.stop, block.handler]
  | _ => []

/-- Labels that are set aside for a point before its code is made. -/
def Point.labels (point : Point) : List Label :=
  point.resume :: point.restore :: point.kind.labels

namespace MethodPlan

/-- What is known where a saved frame has been taken over but not taken apart. -/
def loaded (plan : MethodPlan) : Set (Nat × Kind) :=
  {plan.layout.context.fact, plan.layout.savedFrame.fact, plan.layout.container.fact} ∪
    plan.layout.lockFacts

/-- What the instrumented method knows where the method itself knew a frame. -/
def known (plan : MethodPlan) (frame : Frame) : Set (Nat × Kind) :=
  frame.facts ∪ plan.layout.lockFacts

/-- What is known where a call is made again. -/
def unpacked (plan : MethodPlan) (frame : Frame) : Set (Nat × Kind) :=
  plan.loaded ∪ plan.layout.frameFacts frame

/-- What is known where locals and arrays have been packed. -/
def packed (plan : MethodPlan) (frame : Frame) (facts : Set (Nat × Kind)) : Set (Nat × Kind) :=
  insert plan.layout.container.fact
    (facts ∪ SlotLayout.arrayFacts plan.layout.localsArray frame.locals)

theorem subset_packed (plan : MethodPlan) (frame : Frame) (facts : Set (Nat × Kind)) :
    facts ⊆ plan.packed frame facts :=
  Set.subset_union_left.trans (Set.subset_insert _ _)

/-- What typing the code of a point rests on: the call takes and leaves what its frame has on the
stack, and there is a variable for everything that is kept meanwhile. -/
structure Typable (plan : MethodPlan) (all : Set (Nat × Kind)) (point : Point)
    (taken below : List Kind) : Prop
    extends Storable plan.layout.maxLocals.toNat plan.layout all point.frame where
  contextKnown : plan.layout.context.fact ∈ point.frame.facts
  called : Signature.ofInsn plan.result.kind point.call = some ⟨taken, point.resultKind⟩
  entries : point.frame.stack.map FrameValue.kind = (taken ++ below).map some
  arguments : point.argumentCount = taken.length
  suspended : point.kind = .suspend → taken = [.ref] ∧ point.resultKind = none
  cached : point.kind ≠ .suspend → ∀ kind, point.resultKind = some kind →
    ∃ var, plan.layout.cache.get kind = some var ∧ var.kind = kind ∧ var.fact ∈ all
  thrown : ∀ rethrow block, point.kind = .guardedInvoke rethrow block →
    ∃ var, plan.layout.throwable = some var ∧ var.kind = .ref ∧ var.fact ∈ all

/-- Local slot for an exception that is thrown on. -/
def throwableFacts (plan : MethodPlan) : Set (Nat × Kind) :=
  {fact | ∃ var, plan.layout.throwable = some var ∧ var.fact = fact}

/-- The shapes at the labels of a point. -/
def declared (plan : MethodPlan) (point : Point) (taken below : List Kind) :
    List (Label × Option Shape) :=
  (point.resume, some ⟨plan.known point.frame, point.resultKind.toList ++ below⟩) ::
  (point.restore, some ⟨plan.loaded, []⟩) ::
  match point.kind with
  | .guardedInvoke rethrow block =>
      [(rethrow, some ⟨plan.throwableFacts ∪ plan.known point.frame, below⟩),
        (block.start, some ⟨plan.unpacked point.frame, taken⟩),
        (block.stop, some ⟨plan.unpacked point.frame, point.resultKind.toList⟩),
        (block.handler, some ⟨plan.unpacked point.frame, [.ref]⟩)]
  | _ => []

/-- A generator of saving code takes two labels at most, and its code goes from the frame of the call
to the frame after it. The labels of the point that it defines are listed. -/
def Saves (plan : MethodPlan) (point : Point) (taken below : List Kind) (own : List Label)
    (generator : Labelled Code) : Prop :=
  ∀ supply : LabelSupply, supply.number + 2 < 2 ^ 32 → ∃ fresh : List (Label × Option Shape),
    definedLabels (generator.run supply).1 = fresh.map Prod.fst ++ own ∧
    Between supply.number (generator.run supply).2.number (fresh.map Prod.fst) ∧
    (generator.run supply).2.number ≤ supply.number + 2 ∧
    ∀ shapeAt, Declares shapeAt (plan.declared point taken below ++ fresh) →
      Types ⟨plan.layout.maxLocals.toNat, plan.result.kind, shapeAt⟩ (plan.known point.frame)
        (some ⟨plan.known point.frame, taken ++ below⟩) (generator.run supply).1
        (some ⟨plan.known point.frame, point.resultKind.toList ++ below⟩)

namespace Typable

variable {plan : MethodPlan} {all : Set (Nat × Kind)} {point : Point} {taken below : List Kind}
  {scheme : Scheme} {base facts : Set (Nat × Kind)} {stack : List Kind}

theorem knownWithin (typable : plan.Typable all point taken below) :
    plan.known point.frame ⊆ all :=
  Set.union_subset typable.own typable.toPlaced.lockFacts

theorem loadedWithin (typable : plan.Typable all point taken below) : plan.loaded ⊆ all := by
  refine Set.union_subset ?_ typable.toPlaced.lockFacts
  rintro fact (rfl | rfl | rfl)
  · exact typable.context.2
  · exact typable.savedFrame.2
  · exact typable.container.2

theorem unpackedWithin (typable : plan.Typable all point taken below) :
    plan.unpacked point.frame ⊆ all :=
  Set.union_subset typable.loadedWithin typable.arrays

/-- Locals and arrays are packed into a new container. -/
theorem saveLocalsAndPack (typable : plan.Typable all point taken below)
    (limit : scheme.limit = plan.layout.maxLocals.toNat) (covered : base ⊆ facts)
    (within : facts ⊆ all) (own : point.frame.facts ⊆ facts)
    (entries : SlotLayout.arrayFacts plan.layout.stackArray point.frame.stack ⊆ facts) :
    Types scheme base (some ⟨facts, stack⟩) (plan.saveLocalsAndPack point.frame)
      (some ⟨plan.packed point.frame facts, stack⟩) := by
  have storable : Storable scheme.limit plan.layout all point.frame := limit ▸ typable.toStorable
  have arrays : SlotLayout.arrayFacts plan.layout.localsArray point.frame.locals ⊆ all :=
    Set.subset_union_left.trans storable.arrays
  have wider : facts ⊆
      facts ∪ SlotLayout.arrayFacts plan.layout.localsArray point.frame.locals :=
    Set.subset_union_left
  unfold MethodPlan.saveLocalsAndPack
  rw [List.append_assoc]
  refine (storable.allocateLocals covered within).append ?_
  refine (storable.saveLocals (covered.trans wider) Set.subset_union_right
    (own.trans wider)).append ?_
  refine storable.pack (covered.trans wider) (Set.union_subset within arrays) ?_
  exact Set.union_subset Set.subset_union_right (entries.trans wider)

theorem packedWithin (typable : plan.Typable all point taken below) (within : facts ⊆ all) :
    plan.packed point.frame facts ⊆ all :=
  Set.insert_subset typable.container.2
    (Set.union_subset within (Set.subset_union_left.trans typable.arrays))

theorem declaredResume {shapeAt : Label → Option Shape} {fresh : List (Label × Option Shape)}
    (declared : Declares shapeAt (plan.declared point taken below ++ fresh)) :
    shapeAt point.resume =
      some ⟨plan.known point.frame, point.resultKind.toList ++ below⟩ :=
  declared _ (List.mem_append_left _ List.mem_cons_self)

theorem declaredRestore {shapeAt : Label → Option Shape} {fresh : List (Label × Option Shape)}
    (declared : Declares shapeAt (plan.declared point taken below ++ fresh)) :
    shapeAt point.restore = some ⟨plan.loaded, []⟩ :=
  declared _ (List.mem_append_left _ (List.mem_cons_of_mem _ List.mem_cons_self))

theorem call (typable : plan.Typable all point taken below) (covered : base ⊆ facts) :
    Types scheme base (some ⟨facts, taken ++ stack⟩) [point.call]
      (some ⟨facts, point.resultKind.toList ++ stack⟩) := by
  have known : Signature.ofInsn scheme.result point.call = some ⟨taken, point.resultKind⟩ :=
    typable.called
  exact Types.op known rfl covered

/-- The arguments of the call go into their arrays. -/
theorem saveArguments (typable : plan.Typable all point taken below)
    (limit : scheme.limit = plan.layout.maxLocals.toNat) (covered : base ⊆ facts)
    (arrays : SlotLayout.arrayFacts plan.layout.stackArray point.frame.stack ⊆ facts) :
    Types scheme base (some ⟨facts, taken ++ below⟩)
      (plan.layout.saveStack point.frame.stack point.argumentCount) (some ⟨facts, below⟩) := by
  have storable : Storable scheme.limit plan.layout all point.frame := limit ▸ typable.toStorable
  have saved : Types scheme base
      (some ⟨facts, (taken ++ below).take point.argumentCount ++ below⟩) _ _ :=
    storable.saveStack covered arrays (List.Subset.refl _) typable.entries point.argumentCount
  rwa [List.take_left' typable.arguments.symm] at saved

theorem loadArguments (typable : plan.Typable all point taken below)
    (limit : scheme.limit = plan.layout.maxLocals.toNat) (covered : base ⊆ facts)
    (arrays : SlotLayout.arrayFacts plan.layout.stackArray point.frame.stack ⊆ facts) :
    Types scheme base (some ⟨facts, stack⟩)
      (plan.layout.loadTop point.frame.stack point.argumentCount)
      (some ⟨facts, taken ++ stack⟩) := by
  have storable : Storable scheme.limit plan.layout all point.frame := limit ▸ typable.toStorable
  have loaded : Types scheme base _ _
      (some ⟨facts, (taken ++ below).take point.argumentCount ++ stack⟩) :=
    storable.loadTop covered arrays typable.entries point.argumentCount
  rwa [List.take_left' typable.arguments.symm] at loaded

/-- The categories of the entries under the arguments. -/
theorem lower (typable : plan.Typable all point taken below) :
    (point.frame.stack.drop point.argumentCount).map FrameValue.kind = below.map some := by
  rw [List.map_drop, typable.entries, typable.arguments, List.map_append]
  exact List.drop_left' (List.length_map _)

theorem loadBelow (typable : plan.Typable all point taken below)
    (limit : scheme.limit = plan.layout.maxLocals.toNat) (covered : base ⊆ facts)
    (arrays : SlotLayout.arrayFacts plan.layout.stackArray point.frame.stack ⊆ facts) :
    Types scheme base (some ⟨facts, []⟩)
      (plan.layout.loadBelow point.frame.stack point.argumentCount) (some ⟨facts, below⟩) := by
  have storable : Storable scheme.limit plan.layout all point.frame := limit ▸ typable.toStorable
  have loaded : Types scheme base (some ⟨facts, []⟩) _
      (some ⟨facts, (taken ++ below).drop point.argumentCount ++ []⟩) :=
    storable.loadBelow covered arrays typable.entries point.argumentCount
  rwa [List.drop_left' typable.arguments.symm, List.append_nil] at loaded

/-- All entries of a part of the stack go into their arrays. -/
theorem saveEntries (typable : plan.Typable all point taken below)
    (limit : scheme.limit = plan.layout.maxLocals.toNat) (covered : base ⊆ facts)
    (arrays : SlotLayout.arrayFacts plan.layout.stackArray point.frame.stack ⊆ facts)
    {values : List FrameValue} {kinds : List Kind} (part : values ⊆ point.frame.stack)
    (useful : values.map FrameValue.kind = kinds.map some) :
    Types scheme base (some ⟨facts, kinds⟩) (plan.layout.saveStack values values.length)
      (some ⟨facts, []⟩) := by
  have storable : Storable scheme.limit plan.layout all point.frame := limit ▸ typable.toStorable
  have length : kinds.length = values.length := by
    simpa using (congrArg List.length useful).symm
  have saved : Types scheme base (some ⟨facts, kinds.take values.length ++ []⟩)
      (plan.layout.saveStack values values.length) (some ⟨facts, []⟩) :=
    storable.saveStack covered arrays part useful values.length
  rwa [List.append_nil, List.take_of_length_le (by omega)] at saved

theorem saveLower (typable : plan.Typable all point taken below)
    (limit : scheme.limit = plan.layout.maxLocals.toNat) (covered : base ⊆ facts)
    (arrays : SlotLayout.arrayFacts plan.layout.stackArray point.frame.stack ⊆ facts) :
    Types scheme base (some ⟨facts, below⟩)
      (plan.layout.saveStack (point.frame.stack.drop point.argumentCount)
        (point.frame.stack.length - point.argumentCount)) (some ⟨facts, []⟩) := by
  rw [← List.length_drop]
  exact typable.saveEntries limit covered arrays (List.drop_subset _ _) typable.lower

/-- The frame is saved instead of the call of the suspend primitive; the code behind it is come to
after the frame has been restored. -/
theorem saveSuspend (typable : plan.Typable all point taken below) :
    plan.Saves point taken below [point.resume] (plan.saveSuspend point) := by
  intro supply room
  let entered := plan.known point.frame ∪
    SlotLayout.arrayFacts plan.layout.stackArray point.frame.stack
  let packed := plan.packed point.frame entered
  have within : entered ⊆ all :=
    Set.union_subset typable.knownWithin (Set.subset_union_right.trans typable.arrays)
  have locks : plan.layout.lockFacts ⊆ plan.known point.frame := Set.subset_union_right
  have covered : plan.known point.frame ⊆ entered := Set.subset_union_left
  have covered' : plan.known point.frame ⊆ packed :=
    covered.trans (plan.subset_packed point.frame entered)
  have context : plan.layout.context.fact ∈ plan.known point.frame := Or.inl typable.contextKnown
  have releases : Drafts plan.layout.maxLocals.toNat plan.result.kind all packed [] 2
      plan.exitStored :=
    exitStored_drafts typable.toPlaced (locks.trans covered') (typable.packedWithin within)
  obtain ⟨more, fresh, above, _, labels, between, few, types⟩ := releases supply room
  refine ⟨fresh, ?_, between, few, ?_⟩
  · show definedLabels (_ ++ _ ++ _ ++ _ ++ _ ++ _ ++ (plan.exitStored.run supply).1 ++ _ ++ _) = _
    simp only [definedLabels_append, (plan.marker_calm _).definedLabels,
      (SlotLayout.allocateStack_calm _ _).definedLabels,
      (SlotLayout.saveStack_calm _ _ _).definedLabels,
      (plan.saveLocalsAndPack_calm _).definedLabels, (plan.pushSavedFrame_calm _).definedLabels,
      (plan.setMode_calm _).definedLabels, labels, dummyReturn_labels, MethodPlan.step,
      List.nil_append, List.append_nil]
    rfl
  · intro shapeAt declared
    have resumes := declaredResume declared
    show Types _ _ _ (_ ++ _) _
    simp only [List.append_assoc]
    refine (Types.marker plan _ Set.Subset.rfl).append ?_
    refine (typable.toStorable.allocateStack Set.Subset.rfl typable.knownWithin).append ?_
    refine (typable.saveEntries rfl covered Set.subset_union_right (List.Subset.refl _)
      typable.entries).append ?_
    refine (typable.saveLocalsAndPack rfl covered within (Set.subset_union_left.trans covered)
      Set.subset_union_right).append ?_
    refine (Types.pushSavedFrame typable.toPlaced point covered' (covered' context)
      (Set.mem_insert _ _) (locks.trans covered')).append ?_
    refine (Types.setMode typable.toPlaced .saving covered' (covered' context)).append ?_
    refine (types shapeAt _ (fun pair member => declared pair (List.mem_append_right _ member))
      covered').append ?_
    refine (Types.dummyReturn rfl (covered'.trans above)).append ?_
    exact Types.label resumes (below_none _) Set.Subset.rfl

/-- The exception that the repeated call has thrown is thrown again where the call stood. -/
theorem rethrow (typable : plan.Typable all point taken below)
    {fresh : List (Label × Option Shape)}
    (declared : Declares scheme.shapeAt (plan.declared point taken below ++ fresh)) :
    Types scheme (plan.known point.frame) none (plan.rethrow point) none := by
  unfold MethodPlan.rethrow
  rcases kind : point.kind with _ | _ | ⟨rethrow, block⟩
  · exact Types.nil (.refl _)
  · exact Types.nil (.refl _)
  obtain ⟨var, has, reference, _⟩ := typable.thrown rethrow block kind
  have covered : plan.known point.frame ⊆ plan.throwableFacts ∪ plan.known point.frame :=
    Set.subset_union_right
  have shaped : scheme.shapeAt rethrow =
      some ⟨plan.throwableFacts ∪ plan.known point.frame, below⟩ := by
    refine declared (rethrow, _) (List.mem_append_left _ ?_)
    simp [MethodPlan.declared, kind]
  simp only [PointKind.guard?, has, Option.map_some, Option.toList_some, List.cons_append,
    List.nil_append]
  refine Types.cons (Types.label shaped (below_none _) covered) ?_
  refine Types.cons (Types.load reference (Or.inl ⟨var, has, rfl⟩) covered) ?_
  exact Types.throws covered

/-- Labels of the point that the code in the place of a call defines. -/
theorem rethrow_labels (plan : MethodPlan) (point : Point) :
    definedLabels (plan.rethrow point) = match point.kind with
      | .guardedInvoke rethrow _ => [rethrow]
      | _ => [] := by
  unfold MethodPlan.rethrow
  rcases point.kind with _ | _ | ⟨rethrow, block⟩
  · rfl
  · rfl
  · cases plan.layout.throwable <;> rfl

theorem saveInvoke (typable : plan.Typable all point taken below) :
    plan.Saves point taken below (definedLabels (plan.rethrow point) ++ [point.resume])
      (plan.saveInvoke point) := by
  intro supply room
  -- The facts grow along the code: the arrays of the operands first, then what packing adds.
  let entered := plan.known point.frame ∪
    SlotLayout.arrayFacts plan.layout.stackArray point.frame.stack
  let packed := plan.packed point.frame entered
  have within : entered ⊆ all :=
    Set.union_subset typable.knownWithin (Set.subset_union_right.trans typable.arrays)
  have locks : plan.layout.lockFacts ⊆ plan.known point.frame := Set.subset_union_right
  have covered : plan.known point.frame ⊆ entered := Set.subset_union_left
  have covered' : plan.known point.frame ⊆ packed :=
    covered.trans (plan.subset_packed point.frame entered)
  have context : plan.layout.context.fact ∈ plan.known point.frame := Or.inl typable.contextKnown
  have arrays : SlotLayout.arrayFacts plan.layout.stackArray point.frame.stack ⊆ entered :=
    Set.subset_union_right
  have releases : Drafts plan.layout.maxLocals.toNat plan.result.kind all packed [] 2
      plan.exitStored :=
    exitStored_drafts typable.toPlaced (locks.trans covered') (typable.packedWithin within)
  obtain ⟨more, fresh, above, _, labels, between, few, types⟩ := releases supply room
  have covered'' := covered'.trans above
  refine ⟨fresh, ?_, between, few, ?_⟩
  · show definedLabels (_ ++ _ ++ _ ++ _ ++ [point.call] ++ _ ++ _ ++ _ ++ _ ++
      (plan.exitStored.run supply).1 ++ _ ++ _ ++ plan.rethrow point ++ _) = _
    simp only [definedLabels_append, (plan.marker_calm _).definedLabels,
      (SlotLayout.allocateStack_calm _ _).definedLabels,
      (SlotLayout.saveStack_calm _ _ _).definedLabels,
      (SlotLayout.pushAll_calm _ _).definedLabels,
      plan.branchUnlessSaving_labels, (popResult_calm _).definedLabels,
      (plan.saveLocalsAndPack_calm _).definedLabels, (plan.pushSavedFrame_calm _).definedLabels,
      labels, dummyReturn_labels, MethodPlan.step, SlotLayout.loadTop,
      show definedLabels [point.call] = [] from rfl, List.nil_append, List.append_assoc]
    rfl
  · intro shapeAt declared
    have resumes := declaredResume declared
    show Types _ _ _ (_ ++ _) _
    simp only [List.append_assoc]
    refine (Types.marker plan _ Set.Subset.rfl).append ?_
    refine (typable.toStorable.allocateStack Set.Subset.rfl typable.knownWithin).append ?_
    refine (typable.saveArguments rfl covered arrays).append ?_
    refine (typable.loadArguments rfl covered arrays).append ?_
    refine (typable.call covered).append ?_
    refine (Types.branchUnlessSaving typable.toPlaced covered (covered context) ?_).append ?_
    · exact below_declared resumes ⟨covered, rfl⟩
    refine (Types.popResult covered).append ?_
    refine (typable.saveLower rfl covered arrays).append ?_
    refine (typable.saveLocalsAndPack rfl covered within (Set.subset_union_left.trans covered)
      arrays).append ?_
    refine (types shapeAt _ (fun pair member => declared pair (List.mem_append_right _ member))
      covered').append ?_
    refine (Types.pushSavedFrame typable.toPlaced point covered'' (covered'' context)
      (above (Set.mem_insert _ _)) (locks.trans covered'')).append ?_
    refine (Types.dummyReturn rfl covered'').append ?_
    refine (typable.rethrow declared).append ?_
    exact Types.label resumes (below_none _) Set.Subset.rfl

end Typable

end MethodPlan

end StackCoroutine
