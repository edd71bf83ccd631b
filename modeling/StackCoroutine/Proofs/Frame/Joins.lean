import StackCoroutine.Proofs.Frame.Settled

/-!
The frames an analysis starts with and what becomes of two frames at a join. A merge goes value by
value; a stack entry that would be lost makes it fail.
-/

namespace StackCoroutine

namespace FrameValue

theorem kind_eq_none {value : FrameValue} : value.kind = none ↔ value = .uninitialized := by
  cases value <;> simp [kind]

/-- A merge keeps the category of values that agree in it, and nothing else. -/
theorem merge_kind (hierarchy : Hierarchy) (a b : FrameValue) :
    (merge hierarchy a b).kind = if a.kind = b.kind then a.kind else none := by
  cases a <;> cases b <;> simp [merge, kind]
  rename_i x y
  by_cases same : x = y <;> simp [same]

@[simp] theorem ofKind_kind (kind : Kind) (name : String) : (ofKind kind name).kind = some kind := by
  cases kind <;> rfl

theorem size_pos (value : FrameValue) : 0 < value.size := by
  unfold size
  split
  · exact Kind.size_pos _
  · decide

theorem zipWith_merge_kinds {hierarchy : Hierarchy} {mine other : List FrameValue}
    (same : mine.map kind = other.map kind) :
    (List.zipWith (merge hierarchy) mine other).map kind = mine.map kind := by
  induction mine generalizing other with
  | nil => rfl
  | cons first rest ih =>
      cases other with
      | nil => simp at same
      | cons second others =>
          simp only [List.map_cons, List.cons.injEq] at same
          simp [merge_kind, same.1, ih same.2]

end FrameValue

namespace Frame

/-- The same height, and no more local slots. -/
def Within (inner outer : Frame) : Prop :=
  inner.stack.length = outer.stack.length ∧ inner.locals.length ≤ outer.locals.length

/-- A merge of stacks fails only where an entry would be lost. -/
theorem mergeEntries_eq_ok {hierarchy : Hierarchy} {index slot : Nat}
    {mine other merged : List FrameValue} (same : mine.length = other.length) :
    mergeEntries hierarchy index slot mine other = .ok merged ↔
      merged = List.zipWith (FrameValue.merge hierarchy) mine other ∧
        FrameValue.uninitialized ∉ merged := by
  induction mine generalizing slot other merged with
  | nil =>
      cases other with
      | nil => simp +contextual [mergeEntries, eq_comm]
      | cons => simp at same
  | cons first rest ih =>
      cases other with
      | nil => simp at same
      | cons second others =>
          rw [mergeEntries]
          by_cases lost : FrameValue.merge hierarchy first second = .uninitialized
          · simp only [lost, if_true, List.zipWith_cons_cons]
            refine iff_of_false Outcome.throw_bind_ne_ok ?_
            rintro ⟨rfl, kept⟩
            exact kept List.mem_cons_self
          · simp only [lost, if_false, Outcome.bind_eq_ok, Outcome.pure_eq_ok,
              ih (show rest.length = others.length by simpa using same), List.zipWith_cons_cons]
            constructor
            · rintro ⟨tail, ⟨rfl, kept⟩, rfl⟩
              exact ⟨rfl, by simp [kept, Ne.symm lost]⟩
            · rintro ⟨rfl, kept⟩
              exact ⟨_, ⟨rfl, fun member => kept (List.mem_cons_of_mem _ member)⟩, rfl⟩

/-- A merge goes entry by entry and slot by slot. -/
theorem merge_eq_ok {hierarchy : Hierarchy} {index : Nat} {mine other merged : Frame} :
    merge hierarchy index mine other = .ok merged ↔
      mine.stack.length = other.stack.length ∧
      merged.locals = List.zipWith (FrameValue.merge hierarchy) mine.locals other.locals ∧
      merged.stack = List.zipWith (FrameValue.merge hierarchy) mine.stack other.stack ∧
      FrameValue.uninitialized ∉ merged.stack := by
  obtain ⟨locals, stack⟩ := merged
  by_cases same : mine.stack.length = other.stack.length
  · have reversed : mine.stack.reverse.length = other.stack.reverse.length := by simpa using same
    simp only [merge, same, ne_eq, not_true_eq_false, if_false, Outcome.bind_eq_ok,
      Outcome.pure_eq_ok, mergeEntries_eq_ok reversed, true_and, Frame.mk.injEq]
    constructor
    · rintro ⟨entries, ⟨rfl, kept⟩, rfl, rfl⟩
      rw [← List.reverse_zipWith same] at kept ⊢
      simpa using kept
    · rintro ⟨rfl, rfl, kept⟩
      refine ⟨_, ⟨rfl, ?_⟩, rfl, ?_⟩
      · rw [← List.reverse_zipWith same]
        simpa using kept
      · rw [← List.reverse_zipWith same, List.reverse_reverse]
  · simp [merge, same]

theorem merge_within {hierarchy : Hierarchy} {index : Nat} {mine other merged : Frame}
    (joined : merge hierarchy index mine other = .ok merged) :
    Within merged mine ∧ Within merged other := by
  obtain ⟨same, locals, stack, _⟩ := merge_eq_ok.mp joined
  simp only [Within, locals, stack, List.length_zipWith]
  omega

theorem within_joining (hierarchy : Hierarchy) : Analysis.Joining hierarchy Within where
  refl _ := ⟨rfl, Nat.le_refl _⟩
  trans first second := ⟨first.1.trans second.1, Nat.le_trans first.2 second.2⟩
  left joined := (merge_within joined).1
  right joined := (merge_within joined).2

theorem slotsOf_length (values : List FrameValue) :
    (slotsOf values).length = (values.map FrameValue.size).sum := by
  induction values with
  | nil => rfl
  | cons value rest ih =>
      have positive := value.size_pos
      simp [slotsOf, ih]
      omega

end Frame

theorem MethodType.slotsOf_eq (types : List ValueType) :
    slotsOf types = (types.map ValueType.size).sum := by
  unfold slotsOf
  induction types with
  | nil => rfl
  | cons type rest ih => simp [ih]

theorem ValueType.size_pos {type : ValueType} (proper : type ≠ .void) : 0 < type.size := by
  cases type <;> simp_all [size, kind, Kind.size]

theorem MethodType.scanParameters_size {text after : List Char} {types : List ValueType}
    (scanned : scanParameters text = .ok (types, after)) : ∀ type ∈ types, 0 < type.size := by
  fun_induction scanParameters text generalizing types after with
  | case6 =>
      rename_i type _ _ proper types last _ ih
      cases scanned
      intro other member
      rcases List.mem_cons.mp member with rfl | later
      · exact ValueType.size_pos proper
      · exact ih (by assumption) other later
  | _ => simp_all

/-- No parameter is void. -/
theorem MethodType.parse_parameters {descriptor : String} {type : MethodType}
    (parsed : parse descriptor = .ok type) : ∀ parameter ∈ type.parameters, 0 < parameter.size := by
  unfold parse at parsed
  split at parsed
  · split at parsed
    · simp at parsed
    · simp at parsed
    · rename_i parameters after scanned
      split at parsed
      · simp at parsed
      · cases parsed
        exact scanParameters_size scanned
      · simp at parsed
  · simp at parsed

namespace Frame

/-- Values of declared types take the slots of the types. -/
theorem declared_sizes (types : List ValueType) :
    ((types.filterMap FrameValue.ofType?).map FrameValue.size).sum = MethodType.slotsOf types := by
  rw [MethodType.slotsOf_eq]
  induction types with
  | nil => rfl
  | cons first rest ih =>
      cases kind : first.kind with
      | none => simp [FrameValue.ofType?, kind, ih, ValueType.size]
      | some kind' => simp [FrameValue.ofType?, kind, ih, ValueType.size, FrameValue.size]

theorem receiver_sizes (owner : String) (method : Method) :
    ((if method.isStatic then [] else [FrameValue.reference owner]).map FrameValue.size).sum =
      method.receiverSlots := by
  unfold Method.receiverSlots
  split <;> rfl

theorem arguments_sizes (owner : String) (method : Method) (type : MethodType) :
    ((arguments owner method type).map FrameValue.size).sum =
      method.receiverSlots + type.parameterSlots := by
  unfold arguments MethodType.parameterSlots
  rw [List.map_append, List.sum_append, declared_sizes, receiver_sizes]

/-- The first frame has every local slot of the method, and they hold the arguments. -/
theorem entry_eq_ok {owner : String} {method : Method} {frame : Frame}
    (entered : entry owner method = .ok frame) :
    ∃ type, method.type = .ok type ∧
      method.receiverSlots + type.parameterSlots ≤ method.maxLocals.toNat ∧
      frame.locals.length = method.maxLocals.toNat ∧ frame.stack = [] := by
  simp only [entry, Outcome.bind_eq_ok] at entered
  obtain ⟨type, typed, entered⟩ := entered
  split at entered
  · exact absurd entered Outcome.throw_bind_ne_ok
  rename_i fits
  cases Outcome.pure_eq_ok.mp entered
  refine ⟨type, Outcome.mapError_eq_ok.mp typed, by omega, ?_, rfl⟩
  rw [List.length_append, slotsOf_length, arguments_sizes, List.length_replicate]
  omega

end Frame

end StackCoroutine
