import StackCoroutine.Proofs.Instrument.Points

/-!
The continuation points that a search finds: each is a call of the code with the frame of the analysis,
they come in the order of the code, and all their labels are new and different. A search fails only at
a call that cannot be instrumented.
-/

namespace StackCoroutine

/-- The class is refused for what it contains. -/
def InstrumentError.isRefusal : InstrumentError → Bool
  | .suspendInConstructor _ | .dynamicCallSite .. | .markerMismatch .. | .tooManyLocals _ => true
  | _ => false

/-- A coroutine can be suspended at the instruction. -/
def Insn.isContinuation (hierarchy : Hierarchy) : Insn → Bool
  | .invoke _ callee =>
      isSuspendCall hierarchy callee || (contextTaking? hierarchy callee.descriptor).isSome
  | _ => false

/-- A point is a call that control comes to, with its type and frame. -/
structure Detected (hierarchy : Hierarchy) (code : List Insn) (known : Analysis) (point : Point) :
    Prop where
  at_index : code[point.index]? = some point.call
  framed : known.frame? point.index = some point.frame
  typed : point.method.type = .ok point.type
  suspends : point.kind = .suspend → isSuspendCall hierarchy point.method = true
  /-- The block around a repeated call catches all exceptions. -/
  catches : ∀ rethrow block, point.kind = .guardedInvoke rethrow block → block.caught = none

namespace Detection

/-- What holds when the code before an index has been searched. -/
structure Valid (hierarchy : Hierarchy) (code : List Insn) (known : Analysis) (low high index : Nat)
    (found : Detection) : Prop where
  detected : ∀ point ∈ found.points, Detected hierarchy code known point
  ordered : (found.points.map Point.index).Pairwise (· < ·)
  searched : ∀ point ∈ found.points, point.index < index
  /-- Points are numbered as they are found. -/
  numbered : ∀ (number : Nat) point, found.points[number]? = some point → point.number = number
  few : found.points.length ≤ index
  labels : Between low high (found.points.flatMap Point.labels)

variable {scope : Scope} {code : List Insn} {low : Nat}

theorem Valid.next {hierarchy : Hierarchy} {known : Analysis} {high index : Nat}
    {found : Detection} (valid : Valid hierarchy code known low high index found) :
    Valid hierarchy code known low high (index + 1) found :=
  { valid with
    searched := fun point member => Nat.lt_succ_of_lt (valid.searched point member)
    few := Nat.le_succ_of_le valid.few }

theorem Valid.raise {hierarchy : Hierarchy} {known : Analysis} {middle high index : Nat}
    {found : Detection} (valid : Valid hierarchy code known low middle index found)
    (ordered : middle ≤ high) : Valid hierarchy code known low high index found where
  detected := valid.detected
  ordered := valid.ordered
  searched := valid.searched
  numbered := valid.numbered
  few := valid.few
  labels := by
    have none_new : Between middle high [] := .nil ordered
    simpa using valid.labels.append none_new

theorem isSuspendCall_type {hierarchy : Hierarchy} {method : MethodRef}
    (suspends : isSuspendCall hierarchy method = true) : method.type = .ok ⟨[], .void⟩ := by
  simp only [isSuspendCall, Bool.and_eq_true, beq_iff_eq] at suspends
  unfold MethodRef.type
  rw [suspends.1.2]
  decide +kernel

theorem contextTaking?_type {hierarchy : Hierarchy} {descriptor : String} {type : MethodType}
    (taking : contextTaking? hierarchy descriptor = some type) :
    MethodType.parse descriptor = .ok type := by
  unfold contextTaking? at taking
  split at taking
  · split at taking
    · cases taking
      assumption
    · cases taking
  · cases taking

theorem invokeKind_between (scope : Scope) (index : Nat) {supply : LabelSupply}
    (room : supply.number + 4 < 2 ^ 32) :
    Between supply.number ((invokeKind scope index).run supply).2.number
        ((invokeKind scope index).run supply).1.labels ∧
      ((invokeKind scope index).run supply).2.number ≤ supply.number + 4 ∧
      ((invokeKind scope index).run supply).1 ≠ .suspend ∧
      ∀ rethrow block, ((invokeKind scope index).run supply).1 = .guardedInvoke rethrow block →
        block.caught = none := by
  unfold invokeKind
  split
  · obtain ⟨between, last⟩ := LabelSupply.handOut_between room
    refine ⟨between, Nat.le_of_eq last, (by intro same; cases same), ?_⟩
    intro rethrow block same
    cases same
    rfl
  · exact ⟨.nil (Nat.le_refl _), Nat.le_add_right _ _, (by intro same; cases same),
      fun _ _ same => by cases same⟩

/-- A call is passed over, or it is one to consider and has its type and labels. -/
theorem classify_cases (scope : Scope) (index : Nat) (method : MethodRef) {supply : LabelSupply}
    (room : supply.number + 4 < 2 ^ 32) :
    (classify scope index method).run supply = (none, supply) ∨
      ∃ kind type middle, (classify scope index method).run supply = (some (kind, type), middle) ∧
        method.type = .ok type ∧
        (kind = .suspend → isSuspendCall scope.hierarchy method = true) ∧
        (∀ rethrow block, kind = .guardedInvoke rethrow block → block.caught = none) ∧
        Between supply.number middle.number kind.labels ∧
        middle.number ≤ supply.number + 4 := by
  unfold classify
  by_cases suspends : isSuspendCall scope.hierarchy method = true
  · rw [if_pos suspends]
    exact Or.inr ⟨_, _, _, rfl, isSuspendCall_type suspends, fun _ => suspends,
      (fun _ _ same => by cases same), .nil (Nat.le_refl _), Nat.le_add_right _ _⟩
  · rw [if_neg suspends]
    cases taking : contextTaking? scope.hierarchy method.descriptor with
    | none => exact Or.inl rfl
    | some type =>
        obtain ⟨between, few, other, catches⟩ := invokeKind_between scope index room
        exact Or.inr ⟨_, _, _, rfl, contextTaking?_type taking, fun same => absurd same other,
          catches, between, few⟩

theorem classify_none {scope : Scope} {index : Nat} {method : MethodRef}
    {supply middle : LabelSupply} (room : supply.number + 4 < 2 ^ 32)
    (classified : (classify scope index method).run supply = (none, middle)) : middle = supply := by
  rcases classify_cases scope index method room with same | ⟨_, _, _, found, _⟩
  · cases same.symm.trans classified
    rfl
  · cases found.symm.trans classified

theorem classify_some {scope : Scope} {index : Nat} {method : MethodRef}
    {supply middle : LabelSupply} (room : supply.number + 4 < 2 ^ 32) {kind : PointKind}
    {type : MethodType}
    (classified : (classify scope index method).run supply = (some (kind, type), middle)) :
    method.type = .ok type ∧
      (kind = .suspend → isSuspendCall scope.hierarchy method = true) ∧
      (∀ rethrow block, kind = .guardedInvoke rethrow block → block.caught = none) ∧
      Between supply.number middle.number kind.labels ∧ middle.number ≤ supply.number + 4 := by
  rcases classify_cases scope index method room with passed | ⟨_, _, _, found, facts⟩
  · cases passed.symm.trans classified
  · cases found.symm.trans classified
    exact facts

/-- The search goes on behind a call that is no point or is never reached, and behind a point with
that point found; it ends where a constructor would have to suspend. -/
theorem scan_invoke {scope : Scope} {index : Nat} {line : Option UInt32} {found : Detection}
    {dispatch : Dispatch} {method : MethodRef} {rest : List Insn} {supply : LabelSupply}
    {motive : Except InstrumentError Detection × LabelSupply → Prop}
    (passed : ∀ middle, (classify scope index method).run supply = (none, middle) →
      motive ((scan scope (index + 1) line found rest).run.run middle))
    (refused : ∀ middle, motive (.error (.suspendInConstructor scope.label), middle))
    (dead : ∀ kind type middle,
      (classify scope index method).run supply = (some (kind, type), middle) →
      scope.analysis.frame? index = none →
      motive ((scan scope (index + 1) line found rest).run.run middle))
    (reached : ∀ kind type middle frame,
      (classify scope index method).run supply = (some (kind, type), middle) →
      scope.analysis.frame? index = some frame →
      motive ((scan scope (index + 1) line { found with points := found.points ++
        [⟨found.points.length, kind, index, dispatch, method, type, frame, line,
          ⟨middle.next⟩, ⟨middle.next + 1⟩⟩] } rest).run.run ⟨middle.next + 1 + 1⟩)) :
    motive ((scan scope index line found (.invoke dispatch method :: rest)).run.run supply) := by
  have first : ∀ {α β : Type} (action : Labelled α) (next : α → Detecting β),
      (liftM action >>= next).run.run supply =
        (next (action.run supply).1).run.run (action.run supply).2 := fun _ _ => rfl
  show motive ((liftM (classify scope index method) >>= _ : Detecting Detection).run.run supply)
  rw [first]
  rcases classified : (classify scope index method).run supply with ⟨_ | ⟨kind, type⟩, middle⟩
  · exact passed middle classified
  · cases scope.isConstructor with
    | true => exact refused middle
    | false =>
        cases framed : scope.analysis.frame? index with
        | none => exact dead kind type middle classified framed
        | some frame => exact reached kind type middle frame classified framed

/-- Another point is found. -/
theorem Valid.add {hierarchy : Hierarchy} {known : Analysis} {middle high index : Nat}
    {found : Detection} (valid : Valid hierarchy code known low middle index found) {point : Point}
    (detected : Detected hierarchy code known point) (here : point.index = index)
    (number : point.number = found.points.length) (labels : Between middle high point.labels) :
    Valid hierarchy code known low high (index + 1)
      { found with points := found.points ++ [point] } where
  detected other member := by
    rcases List.mem_append.mp member with old | new
    · exact valid.detected other old
    · exact List.mem_singleton.mp new ▸ detected
  ordered := by
    rw [List.map_append, List.pairwise_append]
    refine ⟨valid.ordered, List.pairwise_singleton _ _, ?_⟩
    intro first member second last
    obtain ⟨other, old, rfl⟩ := List.mem_map.mp member
    rw [List.mem_singleton.mp last, here]
    exact valid.searched other old
  searched other member := by
    rcases List.mem_append.mp member with old | new
    · exact Nat.lt_succ_of_lt (valid.searched other old)
    · rw [List.mem_singleton.mp new, here]
      exact Nat.lt_succ_self index
  numbered := by
    intro place other listed
    rw [List.getElem?_append] at listed
    split at listed
    · exact valid.numbered place other listed
    · obtain ⟨last, same⟩ := List.getElem?_eq_some_iff.mp listed
      rw [List.length_singleton] at last
      obtain rfl : other = point := by simpa using same.symm
      omega
  few := by
    have few := valid.few
    rw [List.length_append, List.length_singleton]
    omega
  labels := by
    rw [List.flatMap_append, List.flatMap_singleton]
    exact valid.labels.append labels

/-- What a search comes to from a state in which it is valid. -/
def Comes (hierarchy : Hierarchy) (code : List Insn) (known : Analysis) (low most : Nat) :
    Except InstrumentError Detection × LabelSupply → Prop
  | (.ok found, last) =>
      Valid hierarchy code known low last.number code.length found ∧ last.number ≤ most
  | (.error cause, _) => cause.isRefusal = true

theorem scan_comes {rest : List Insn} {index : Nat} {line : Option UInt32} {found : Detection}
    {supply : LabelSupply} {most : Nat} (following : code.drop index = rest)
    (inside : index ≤ code.length)
    (valid : Valid scope.hierarchy code scope.analysis low supply.number index found)
    (few : supply.number + 6 * rest.length ≤ most) (room : most < 2 ^ 32) :
    Comes scope.hierarchy code scope.analysis low most
      ((scan scope index line found rest).run.run supply) := by
  -- On the code that is left. Every instruction may use six labels, and only a call uses any.
  induction rest generalizing index line found supply with
  | nil =>
      have last : index = code.length := by
        have short := List.drop_eq_nil_iff.mp following
        omega
      exact ⟨last ▸ valid, by simpa using few⟩
  | cons insn rest ih =>
      have here : code[index]? = some insn := by
        rw [← Nat.add_zero index, ← List.getElem?_drop, following]
        rfl
      have following' : code.drop (index + 1) = rest := by
        rw [← List.tail_drop, following]
        rfl
      have inside' : index + 1 ≤ code.length := (List.getElem?_eq_some_iff.mp here).1
      rw [List.length_cons] at few
      have passed : ∀ line, Comes scope.hierarchy code scope.analysis low most
          ((scan scope (index + 1) line found rest).run.run supply) :=
        fun line => ih following' inside' valid.next (by omega)
      have monitored : ∀ uses line, Comes scope.hierarchy code scope.analysis low most
          ((scan scope (index + 1) line ⟨found.points, uses⟩ rest).run.run supply) :=
        fun uses line => ih following' inside'
          { valid.next with
            detected := valid.detected
            ordered := valid.ordered
            numbered := valid.numbered
            labels := valid.labels } (by omega)
      cases insn
      case line number => exact passed (some number)
      case monitorEnter => exact monitored _ line
      case monitorExit => exact monitored _ line
      case invokeDynamic name descriptor =>
        have unfolded : scan scope index line found (.invokeDynamic name descriptor :: rest) = (do
            if (contextTaking? scope.hierarchy descriptor).isSome then
              throw (.dynamicCallSite scope.label name descriptor)
            scan scope (index + 1) line found rest) := rfl
        rw [unfolded]
        split
        · exact rfl
        · exact passed line
      case invoke dispatch method =>
        have room : supply.number + 4 < 2 ^ 32 := by omega
        apply scan_invoke
        case passed =>
          intro middle classified
          exact classify_none room classified ▸ passed line
        case refused => exact fun _ => rfl
        case dead =>
          intro kind type middle classified _
          obtain ⟨_, _, _, between, few⟩ := classify_some room classified
          exact ih following' inside' (valid.raise between.ordered).next (by omega)
        case reached =>
          intro kind type middle frame classified framed
          obtain ⟨typed, suspends, catches, between, few⟩ := classify_some room classified
          obtain ⟨two, last⟩ := LabelSupply.handOut_between
            (show middle.number + 2 < 2 ^ 32 by omega)
          have few' : LabelSupply.number ⟨middle.next + 1 + 1⟩ + 6 * rest.length ≤ most := by
            have same : LabelSupply.number ⟨middle.next + 1 + 1⟩ = middle.number + 2 := last
            omega
          refine ih following' inside' (valid.add ⟨here, framed, typed, suspends, catches⟩ rfl rfl
            ((between.append two).perm ?_)) few'
          exact List.perm_append_comm
      all_goals exact passed line

theorem ofMethod_comes {hierarchy : Hierarchy} {owner : String} {method : Method}
    {known : Analysis} {labels : LabelTable} (collected : Analysis.labelTable method.code = .ok labels)
    {supply : LabelSupply} (room : supply.number + 6 * method.code.length < 2 ^ 32) :
    Comes hierarchy method.code known supply.number (supply.number + 6 * method.code.length)
      ((ofMethod hierarchy owner method known).run.run supply) := by
  unfold ofMethod
  rw [collected]
  refine scan_comes rfl (Nat.zero_le _) ⟨by simp, by simp, by simp, by simp,
    by simp, .nil (Nat.le_refl _)⟩
    (Nat.le_refl _) room

end Detection

/-- The values of parameters stand in the first frame at their slots. -/
theorem Frame.slotsOf_getElem? (front back : List FrameValue) (value : FrameValue) :
    (slotsOf (front ++ value :: back))[(front.map FrameValue.size).sum]? = some value := by
  induction front with
  | nil => rfl
  | cons first rest ih =>
      have positive : 0 < first.size := by
        unfold FrameValue.size
        split
        · exact Kind.size_pos _
        · decide
      have place : ((first :: rest).map FrameValue.size).sum =
          (first.size - 1 + (rest.map FrameValue.size).sum) + 1 := by
        rw [List.map_cons, List.sum_cons]
        omega
      rw [place]
      simp only [List.cons_append, slotsOf, List.getElem?_cons_succ]
      rw [List.getElem?_append_right (by simp)]
      simpa using ih

/-- The context lies in its slot when the method starts. -/
theorem contextSlot?_known {hierarchy : Hierarchy} {owner : String} {method : Method}
    {type : MethodType} {slot : UInt16} {entry : Frame} (typed : method.type = .ok type)
    (found : contextSlot? hierarchy method type = some slot)
    (entered : Frame.entry owner method = .ok entry) : (slot.toNat, .ref) ∈ entry.facts := by
  obtain ⟨parameter, first, rest⟩ := Option.bind_eq_some_iff.mp found
  dsimp only at rest
  split at rest
  swap
  · cases rest
  rename_i small
  cases rest
  obtain ⟨inside, takes, _⟩ := List.findIdx?_eq_some_iff_getElem.mp first
  obtain ⟨name, object⟩ : ∃ name, type.parameters[parameter] = .object name := by
    split at takes
    · exact ⟨_, by assumption⟩
    · cases takes
  have parts : type.parameters = type.parameters.take parameter ++
      .object name :: type.parameters.drop (parameter + 1) := by
    rw [← object, List.getElem_cons_drop, List.take_append_drop]
  simp only [Frame.entry, Outcome.bind_eq_ok] at entered
  obtain ⟨type', typed', entered⟩ := entered
  split at entered
  · exact absurd entered Outcome.throw_bind_ne_ok
  cases Outcome.pure_eq_ok.mp entered
  cases (Outcome.mapError_eq_ok.mp typed').symm.trans typed
  have number : (UInt16.ofNat (method.receiverSlots +
      MethodType.slotsOf (type.parameters.take parameter))).toNat =
      method.receiverSlots + MethodType.slotsOf (type.parameters.take parameter) := by
    rw [UInt16.toNat_ofNat']
    omega
  have arguments : Frame.arguments owner method type =
      ((if method.isStatic then [] else [FrameValue.reference owner]) ++
        (type.parameters.take parameter).filterMap FrameValue.ofType?) ++
        .reference name :: (type.parameters.drop (parameter + 1)).filterMap FrameValue.ofType? := by
    unfold Frame.arguments
    conv_lhs => rw [parts]
    rw [List.filterMap_append, List.append_assoc]
    rfl
  -- The entries before that of the context take the slots of the receiver and the parameters
  -- before it.
  have place := Frame.slotsOf_getElem?
    ((if method.isStatic then [] else [FrameValue.reference owner]) ++
      (type.parameters.take parameter).filterMap FrameValue.ofType?)
    ((type.parameters.drop (parameter + 1)).filterMap FrameValue.ofType?) (.reference name)
  rw [← arguments, List.map_append, List.sum_append, Frame.receiver_sizes,
    Frame.declared_sizes] at place
  rw [Frame.mem_facts, number]
  obtain ⟨within, _⟩ := List.getElem?_eq_some_iff.mp place
  rw [List.getElem?_append_left within, place]
  rfl

end StackCoroutine
