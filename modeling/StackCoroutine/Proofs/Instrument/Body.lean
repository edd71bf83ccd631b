import StackCoroutine.Proofs.Instrument.Dispatching

/-!
Typing of the method's own code after its calls and monitor instructions have been replaced. Before the
code for every instruction stands what the analysis knew there, and the list of monitors; where the
analysis knew no frame, control does not come.
-/

namespace StackCoroutine.MethodPlan

/-- The scheme of the instrumented method. -/
def scheme (plan : MethodPlan) (shapeAt : Label → Option Shape) : Scheme :=
  ⟨plan.layout.maxLocals.toNat, plan.result.kind, shapeAt⟩

/-- The shape that instrumented code has where the analysis knew a frame. -/
def stage (plan : MethodPlan) (known : Analysis) (index : Nat) : Option Shape :=
  (known.frame? index).map fun frame => ⟨plan.known frame, (Shape.ofFrame frame.kinds).stack⟩

/-- What the analysis knew of the local slots at an instruction is known throughout its code. -/
def needed (plan : MethodPlan) (known : Analysis) (index : Nat) (shape : Shape) : Prop :=
  ∃ frame, known.frame? index = some frame ∧ plan.known frame ⊆ shape.locals

/-- The code for one instruction. -/
def bodySegment (plan : MethodPlan) (known : Analysis) (codes : List (Nat × PointCode))
    (item : Insn × Nat) : Segment :=
  ⟨plan.needed known item.2, plan.stage known item.2, plan.replacement codes item.2 item.1⟩

variable {plan : MethodPlan} {hierarchy : Hierarchy} {owner : String} {method : Method}
  {contextSlot : UInt16} {known : Analysis} {labels : LabelTable}
  {handlers : List Analysis.Handler} {entry : Frame} {shapeAt : Label → Option Shape}

/-- A frame that the analysis passed on is of the shape where it arrived. -/
theorem arrived_below {target : Nat} {frame : Frame}
    (arrived : Analysis.Arrived Frame.Covers known target frame) :
    Below (some ⟨plan.known frame, (Shape.ofFrame frame.kinds).stack⟩) (plan.stage known target) := by
  obtain ⟨mine, found, covers⟩ := arrived
  have shaped : plan.stage known target =
      some ⟨plan.known mine, (Shape.ofFrame mine.kinds).stack⟩ := by
    rw [stage, found]
    rfl
  refine below_declared shaped ⟨Set.union_subset_union covers.facts Set.Subset.rfl, ?_⟩
  exact congrArg (List.filterMap id) covers.stack.symm

/-- A kept instruction goes on as in the method itself. -/
theorem kept_typed (grounded : plan.Grounded hierarchy owner method contextSlot known labels handlers
    entry) (declared : ∀ (place : Nat) (label : Label), method.code[place]? = some (.label label) →
      shapeAt label = plan.stage known place) {index : Nat} {insn : Insn} {frame : Frame}
    (at_index : method.code[index]? = some insn) (found : known.frame? index = some frame) :
    Types (plan.scheme shapeAt) (plan.known frame) (plan.stage known index) [insn]
      (plan.stage known (index + 1)) := by
  obtain ⟨after, stepped, branches, follows, _⟩ :=
    grounded.sound.passes (by simpa using at_index) found
  obtain ⟨proper, slots⟩ := grounded.proper index frame found
  have staged : plan.stage known index =
      some ⟨plan.known frame, (Shape.ofFrame frame.kinds).stack⟩ := by
    rw [stage, found]
    rfl
  have length : frame.kinds.locals.length = method.maxLocals.toNat := by
    simpa [Frame.kinds] using slots
  have fits : method.maxLocals.toNat ≤ plan.layout.maxLocals.toNat := grounded.serves.room
  have outside : ∀ fact ∈ plan.layout.lockFacts, frame.kinds.locals.length ≤ fact.1 := by
    rintro fact ⟨locks, tracked, rfl⟩
    have listed := (grounded.serves.locks locks tracked).2.2.2 locks.state
      (by simp [LockVariables.list])
    exact length ▸ (grounded.serves.bounds _ listed).1
  have executes : Shape.Executes (plan.scheme shapeAt).limit (plan.scheme shapeAt).result insn
      ⟨plan.known frame, (Shape.ofFrame frame.kinds).stack⟩
      ⟨plan.known after, (Shape.ofFrame after.kinds).stack⟩ :=
    Shape.executes_ofFrame plan.layout.lockFacts proper (length ▸ fits) outside stepped
  have reaches : ∀ label ∈ insn.targets,
      Below (some ⟨plan.known after, (Shape.ofFrame after.kinds).stack⟩) (shapeAt label) := by
    intro label member
    obtain ⟨target, resolved, arrived⟩ := branches label member
    have place := (Analysis.labelTable_resolve grounded.prepared.collected label target).mp resolved
    rw [declared target label place]
    exact arrived_below arrived
  rw [staged]
  -- A label is typed by the frame it is reached with, any other instruction by its effect.
  by_cases labelled : ∃ label, insn = .label label
  · obtain ⟨label, rfl⟩ := labelled
    have same : frame.kinds = after.kinds := Option.some.inj stepped
    have next : Below (some ⟨plan.known frame, (Shape.ofFrame frame.kinds).stack⟩)
        (plan.stage known (index + 1)) := by
      have told : plan.known frame = plan.known after := by
        unfold MethodPlan.known Frame.facts
        rw [same]
      rw [told, same]
      exact arrived_below (follows rfl).2
    exact (Types.label ((declared index label at_index).trans staged) (.refl _)
      Set.Subset.rfl).weaken (.refl _) next
  · have types := Types.insn (fun label same => labelled ⟨label, same⟩) Set.Subset.rfl executes
      reaches
    cases terminator : insn.isTerminator with
    | true =>
        rw [if_pos terminator] at types
        exact types.weaken (.refl _) (below_none _)
    | false =>
        rw [if_neg (by simp [terminator])] at types
        exact types.weaken (.refl _) (arrived_below (follows terminator).2)

/-- The code for points by index, as the instrumented method is put together with it. -/
def codesOf (items : List CodedPoint) : List (Nat × PointCode) :=
  items.map fun item => (item.point.index, item.code)

theorem lookup_codesOf {items : List CodedPoint} {index : Nat} {code : PointCode}
    (found : (codesOf items).lookup index = some code) :
    ∃ item ∈ items, item.point.index = index ∧ item.code = code := by
  obtain ⟨item, member, same⟩ := List.mem_map.mp (Outcome.lookup_mem found)
  cases same
  exact ⟨item, member, rfl, rfl⟩

/-- Each point of a plan has its code. -/
structure Arranged (plan : MethodPlan) (items : List CodedPoint) : Prop where
  points : items.map CodedPoint.point = plan.points
  coded : ∀ item ∈ items, plan.Coded item.point item.point.taken item.point.below item.code
    item.fresh item.segments

/-- What the labels of the instrumented method have for their shapes. -/
structure Agrees (plan : MethodPlan) (code : List Insn) (known : Analysis)
    (items : List CodedPoint) (shapeAt : Label → Option Shape) : Prop where
  own : ∀ (index : Nat) (label : Label), code[index]? = some (.label label) →
    shapeAt label = plan.stage known index
  points : ∀ item ∈ items, Declares shapeAt
    (plan.declared item.point item.point.taken item.point.below ++ item.fresh)

variable {items : List CodedPoint}

theorem Arranged.member (arranged : plan.Arranged items) {item : CodedPoint} (listed : item ∈ items) :
    item.point ∈ plan.points :=
  arranged.points ▸ List.mem_map_of_mem listed

/-- The code for an instruction goes on as the instruction does. -/
theorem live_typed (grounded : plan.Grounded hierarchy owner method contextSlot known labels handlers
    entry) (arranged : plan.Arranged items) (agrees : plan.Agrees method.code known items shapeAt)
    {index : Nat} {insn : Insn} {frame : Frame} (at_index : method.code[index]? = some insn)
    (found : known.frame? index = some frame) :
    Types (plan.scheme shapeAt) (plan.known frame) (plan.stage known index)
      (plan.replacement (codesOf items) index insn) (plan.stage known (index + 1)) := by
  obtain ⟨after, stepped, _, follows, _⟩ :=
    grounded.sound.passes (by simpa using at_index) found
  have staged : plan.stage known index =
      some ⟨plan.known frame, (Shape.ofFrame frame.kinds).stack⟩ := by
    rw [stage, found]
    rfl
  -- A call or monitor instruction leaves the locals alone, and so does what replaces it.
  have replaced : ∀ (signature : Signature) {code : Code},
      Signature.ofInsn plan.result.kind insn = some signature → insn.isTerminator = false →
      (∀ below, (Shape.ofFrame frame.kinds).stack = signature.takes ++ below →
        Types (plan.scheme shapeAt) (plan.known frame)
          (some ⟨plan.known frame, signature.takes ++ below⟩) code
          (some ⟨plan.known frame, signature.gives.toList ++ below⟩)) →
      Types (plan.scheme shapeAt) (plan.known frame) (plan.stage known index) code
        (plan.stage known (index + 1)) := by
    intro signature code signed continues types
    obtain ⟨below, before_stack, after_stack, locals⟩ := Shape.step_signature signed stepped
    have same : plan.known after = plan.known frame :=
      congrArg (· ∪ plan.layout.lockFacts) locals
    have next : Below (some ⟨plan.known after, (Shape.ofFrame after.kinds).stack⟩)
        (plan.stage known (index + 1)) := arrived_below (follows continues).2
    rw [same, after_stack] at next
    rw [staged, before_stack]
    exact (types below before_stack).weaken (.refl _) next
  unfold replacement
  split
  · rename_i code looked
    obtain ⟨item, listed, rfl, rfl⟩ := lookup_codesOf looked
    have detected := grounded.detected item.point (arranged.member listed)
    cases found.symm.trans detected.framed
    cases at_index.symm.trans detected.at_index
    obtain ⟨called, _, _⟩ := grounded.called (arranged.member listed)
    refine replaced _ called rfl ?_
    intro below stack
    have rest : below = item.point.below := by
      have whole : item.point.taken ++ below = item.point.taken ++ item.point.below :=
        stack.symm.trans item.point.taken_append_below.symm
      exact List.append_cancel_left whole
    rw [rest]
    exact ((arranged.coded item listed).typed shapeAt (agrees.points item listed)).1
  · obtain ⟨proper, slots⟩ := grounded.proper index frame found
    have slots' : frame.kinds.locals.length = method.maxLocals.toNat := by
      simpa [Frame.kinds] using slots
    have placed : plan.layout.Placed plan.layout.maxLocals.toNat (frame.facts ∪ plan.layout.facts) :=
      grounded.serves.placed proper slots' (grounded.context index frame found)
    split
    · rename_i locks tracked _
      have state : locks.state.fact ∈ plan.known frame := Or.inr ⟨locks, tracked, rfl⟩
      refine replaced ⟨[.ref], none⟩ rfl rfl fun below _ => ?_
      exact Types.enterLock (placed.locks locks tracked) Set.Subset.rfl state
    · rename_i locks tracked _
      have state : locks.state.fact ∈ plan.known frame := Or.inr ⟨locks, tracked, rfl⟩
      refine replaced ⟨[.ref], none⟩ rfl rfl fun below _ => ?_
      exact Types.exitLock (placed.locks locks tracked) Set.Subset.rfl state
    · exact kept_typed grounded agrees.own at_index found

/-- Where control does not come, nothing but the instruction stands. -/
theorem dead_typed (grounded : plan.Grounded hierarchy owner method contextSlot known labels handlers
    entry) (arranged : plan.Arranged items) (agrees : plan.Agrees method.code known items shapeAt)
    {index : Nat} {insn : Insn} (at_index : method.code[index]? = some insn)
    (dead : known.frame? index = none) (needs : Shape → Prop) (stop : Option Shape) :
    TypesWith (plan.scheme shapeAt) needs (plan.stage known index)
      (plan.replacement (codesOf items) index insn) stop := by
  have staged : plan.stage known index = none := by rw [stage, dead]; rfl
  rw [staged]
  refine Types.dead fun label member => ?_
  unfold replacement at member
  split at member
  · rename_i code looked
    obtain ⟨item, listed, rfl, _⟩ := lookup_codesOf looked
    have framed := (grounded.detected item.point (arranged.member listed)).framed
    cases framed.symm.trans dead
  · split at member
    · simp [LockVariables.enter, callVirtual, Variable.load] at member
    · simp [LockVariables.exit, callVirtual, Variable.load] at member
    · cases List.mem_singleton.mp member
      exact (agrees.own index label at_index).trans staged

/-- The code for the method's instructions holds together, and control does not come to its end. -/
theorem body_linked (grounded : plan.Grounded hierarchy owner method contextSlot known labels
    handlers entry) (arranged : plan.Arranged items)
    (agrees : plan.Agrees method.code known items shapeAt) :
    Segment.Linked (plan.scheme shapeAt)
      (method.code.zipIdx.map (plan.bodySegment known (codesOf items))) none := by
  have size : known.frames.size = method.code.length := by simpa using grounded.sound.size
  have link : ∀ done rest, method.code = done ++ rest →
      Segment.Linked (plan.scheme shapeAt)
        ((rest.zipIdx done.length).map (plan.bodySegment known (codesOf items))) none ∧
      Segment.startOf ((rest.zipIdx done.length).map (plan.bodySegment known (codesOf items))) none =
        plan.stage known done.length := by
    intro done rest split
    induction rest generalizing done with
    | nil =>
        refine ⟨trivial, ?_⟩
        have outside : known.frame? done.length = none := by
          rw [List.append_nil] at split
          simp [Analysis.frame?, size, split]
        rw [stage, outside]
        rfl
    | cons insn rest ih =>
        obtain ⟨linked, starts⟩ := ih (done ++ [insn]) (by simpa using split)
        rw [List.length_append, List.length_singleton] at linked starts
        rw [List.zipIdx_cons, List.map_cons]
        refine ⟨⟨?_, linked⟩, rfl⟩
        rw [starts]
        have at_index : method.code[done.length]? = some insn := by simp [split]
        cases found : known.frame? done.length with
        | none => exact dead_typed grounded arranged agrees at_index found _ _
        | some frame =>
            obtain ⟨shapes, flows, covered⟩ := live_typed grounded arranged agrees at_index found
            exact ⟨shapes, flows, fun shape member => ⟨frame, found, covered shape member⟩⟩
  exact (link [] method.code rfl).1

end StackCoroutine.MethodPlan
