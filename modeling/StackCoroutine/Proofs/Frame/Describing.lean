import Mathlib.Data.List.Forall2
import StackCoroutine.Machine.Step
import StackCoroutine.Proofs.Frame.Joins

/-!
Frames that describe the state of an invocation. An entry tells of a value that it is of the same
storage category, and of the null constant that the value is null; what of this is kept track of is
left open as a relation, so that heights alone are a case of it. A merged frame describes whatever
one of its parts does, and the frame a method starts with describes its arguments in their slots.
-/

namespace StackCoroutine

/-- The value is of the category of the entry, and null if the entry is the null constant. -/
structure FrameValue.Describes (entry : FrameValue) (value : Value) : Prop where
  kind : entry.kind = some value.kind
  null : entry = .null → value = .null

/-- What entries may tell of values: they tell it of values of their category, and an entry of the
same category that is not the null constant tells no more. -/
structure Telling (tells : FrameValue → Value → Prop) : Prop where
  ofKind : ∀ {entry value}, entry.kind = some value.kind → entry ≠ .null → tells entry value
  null : tells .null .null
  widen : ∀ {entry wider value}, tells entry value → wider.kind = entry.kind → wider ≠ .null →
    tells wider value

theorem FrameValue.ofKind_ne_null (kind : Kind) (name : String) : ofKind kind name ≠ .null := by
  cases kind <;> nofun

/-- What is told of a value of a category, any entry declared for the category tells. -/
theorem Telling.declared {tells : FrameValue → Value → Prop} (telling : Telling tells)
    {entry : FrameValue} {value : Value} {kind : Kind} {name : String} (told : tells entry value)
    (fits : entry.kind = some kind) : tells (.ofKind kind name) value :=
  telling.widen told (by rw [FrameValue.ofKind_kind, fits]) (FrameValue.ofKind_ne_null kind name)

/-- A value of a category is one that any entry declared for the category tells of. -/
theorem Telling.declares {tells : FrameValue → Value → Prop} (telling : Telling tells)
    {value : Value} {kind : Kind} {name : String} (fits : value.kind = kind) :
    tells (.ofKind kind name) value :=
  telling.ofKind (by rw [FrameValue.ofKind_kind, fits]) (FrameValue.ofKind_ne_null kind name)

theorem FrameValue.describes_telling : Telling FrameValue.Describes where
  ofKind kind proper := ⟨kind, fun null => absurd null proper⟩
  null := ⟨rfl, fun _ => rfl⟩
  widen tells kind proper := ⟨kind.trans tells.kind, fun null => absurd null proper⟩

/-- Nothing is told of the values, so that frames describe the number of them. -/
theorem Telling.heights : Telling fun _ _ => True :=
  ⟨fun _ _ => trivial, trivial, fun _ _ _ => trivial⟩

/-- The entries of the frame tell of the operands, and its initialized slots of the values there. -/
structure Frame.Describes (tells : FrameValue → Value → Prop) (frame : Frame)
    (locals stack : List Value) : Prop where
  locals : ∀ (slot : Nat) entry, frame.locals[slot]? = some entry → entry ≠ .uninitialized →
    ∃ value, locals[slot]? = some value ∧ tells entry value
  stack : List.Forall₂ tells frame.stack stack

/-- The first frame describes whatever the second one does. -/
def Frame.Above (tells : FrameValue → Value → Prop) (mine other : Frame) : Prop :=
  ∀ locals stack, other.Describes tells locals stack → mine.Describes tells locals stack

variable {tells : FrameValue → Value → Prop}

namespace FrameValue

theorem kind_of_merge_kept {hierarchy : Hierarchy} {a b : FrameValue}
    (kept : merge hierarchy a b ≠ .uninitialized) :
    (merge hierarchy a b).kind = a.kind ∧ a.kind = b.kind := by
  have merged := merge_kind hierarchy a b
  by_cases same : a.kind = b.kind
  · exact ⟨merged.trans (if_pos same), same⟩
  · rw [if_neg same] at merged
    exact absurd (kind_eq_none.mp merged) kept

/-- Only the null constant merges to itself. -/
theorem merge_eq_null {hierarchy : Hierarchy} {a b : FrameValue}
    (null : merge hierarchy a b = .null) : a = .null ∧ b = .null := by
  cases a <;> cases b <;> simp [merge] at null ⊢
  split at null <;> simp at null

/-- What one of two values tells, their merge tells as well unless it is lost. -/
theorem merge_tells (telling : Telling tells) {hierarchy : Hierarchy} {a b : FrameValue}
    {value : Value} (kept : merge hierarchy a b ≠ .uninitialized)
    (told : tells a value ∨ tells b value) : tells (merge hierarchy a b) value := by
  obtain ⟨kind, same⟩ := kind_of_merge_kept kept
  by_cases null : merge hierarchy a b = .null
  · obtain ⟨rfl, rfl⟩ := merge_eq_null null
    rw [null]
    exact told.elim id id
  · rcases told with mine | other
    · exact telling.widen mine kind null
    · exact telling.widen other (kind.trans same) null

end FrameValue

namespace Frame

theorem zipWith_merge_tells (telling : Telling tells) {hierarchy : Hierarchy}
    {mine other : List FrameValue} {values : List Value} (same : mine.length = other.length)
    (kept : FrameValue.uninitialized ∉ List.zipWith (FrameValue.merge hierarchy) mine other)
    (told : List.Forall₂ tells mine values ∨ List.Forall₂ tells other values) :
    List.Forall₂ tells (List.zipWith (FrameValue.merge hierarchy) mine other) values := by
  induction mine generalizing other values with
  | nil =>
      obtain rfl := List.length_eq_zero_iff.mp same.symm
      exact told.elim id id
  | cons first rest ih =>
      obtain _ | ⟨second, others⟩ := other
      · simp at same
      simp only [List.zipWith_cons_cons, List.mem_cons, not_or] at kept
      have shorter : rest.length = others.length := by simpa using same
      have here : FrameValue.merge hierarchy first second ≠ .uninitialized := Ne.symm kept.1
      rcases told with mine | theirs
      · cases mine with
        | cons top below =>
            exact .cons (FrameValue.merge_tells telling here (.inl top))
              (ih shorter kept.2 (.inl below))
      · cases theirs with
        | cons top below =>
            exact .cons (FrameValue.merge_tells telling here (.inr top))
              (ih shorter kept.2 (.inr below))

/-- A merged frame describes what either of its parts does. -/
theorem Describes.merge (telling : Telling tells) {hierarchy : Hierarchy} {index : Nat}
    {mine other merged : Frame} {locals stack : List Value}
    (joined : Frame.merge hierarchy index mine other = .ok merged)
    (told : mine.Describes tells locals stack ∨ other.Describes tells locals stack) :
    merged.Describes tells locals stack := by
  obtain ⟨height, slots, entries, kept⟩ := merge_eq_ok.mp joined
  constructor
  · intro slot entry here initialized
    rw [slots, List.getElem?_zipWith_eq_some] at here
    obtain ⟨a, b, mineHere, otherHere, rfl⟩ := here
    obtain ⟨kind, same⟩ := FrameValue.kind_of_merge_kept initialized
    have proper : a ≠ .uninitialized ∧ b ≠ .uninitialized := by
      constructor
      · rintro rfl
        exact initialized (FrameValue.kind_eq_none.mp kind)
      · rintro rfl
        exact initialized (FrameValue.kind_eq_none.mp (kind.trans same))
    rcases told with mine | other
    · obtain ⟨value, there, tells⟩ := mine.locals slot a mineHere proper.1
      exact ⟨value, there, FrameValue.merge_tells telling initialized (.inl tells)⟩
    · obtain ⟨value, there, tells⟩ := other.locals slot b otherHere proper.2
      exact ⟨value, there, FrameValue.merge_tells telling initialized (.inr tells)⟩
  · rw [entries] at kept ⊢
    exact zipWith_merge_tells telling height kept (told.imp Describes.stack Describes.stack)

theorem above_joining (telling : Telling tells) (hierarchy : Hierarchy) :
    Analysis.Joining hierarchy (Above tells) where
  refl _ _ _ described := described
  trans first second locals stack described := first locals stack (second locals stack described)
  left joined _ _ described := .merge telling joined (.inl described)
  right joined _ _ described := .merge telling joined (.inr described)

/-- What is still there of the entries once one of them is lost was there before. -/
theorem getElem?_of_lost {entries : List FrameValue} {lost other : Nat} {entry : FrameValue}
    (there : (entries.set lost .uninitialized)[other]? = some entry)
    (initialized : entry ≠ .uninitialized) : entries[other]? = some entry := by
  rw [List.getElem?_set] at there
  split at there
  · split at there
    · cases there
      exact absurd rfl initialized
    · cases there
  · exact there

/-- A value put into a slot is described by the entry put there. -/
theorem Describes.setLocal {frame written : Frame} {index slot : Nat} {entry : FrameValue}
    {value : Value} {locals stack : List Value} (described : frame.Describes tells locals stack)
    (told : tells entry value) (inside : slot < locals.length)
    (done : frame.setLocal index slot entry = .ok written) :
    written.Describes tells (locals.set slot value) stack := by
  unfold Frame.setLocal at done
  split at done
  · cases done
  extract_lets before cut cleared put at done
  cases done
  -- Neighbours that the written value cuts off or covers are lost; all other slots stay.
  constructor
  · intro other found here initialized
    have stays : put[other]? = some found := by
      dsimp only at here
      split at here
      · exact getElem?_of_lost here initialized
      · exact here
    by_cases same : slot = other
    · subst other
      rw [List.getElem?_set, if_pos rfl] at stays
      split at stays
      · cases stays
        exact ⟨value, by simp [inside], told⟩
      · cases stays
    · have kept : cleared[other]? = some found := by
        rwa [List.getElem?_set_ne same] at stays
      have known : frame.locals[other]? = some found := by
        dsimp only [cleared] at kept
        split at kept
        · exact getElem?_of_lost kept initialized
        · exact kept
      obtain ⟨there, held, tells⟩ := described.locals other found known initialized
      exact ⟨there, by rwa [List.getElem?_set_ne same], tells⟩
  · exact described.stack

/-- A slot keeps its entry when another value that the entry tells of is put there. -/
theorem Describes.refill {frame : Frame} {slot : Nat} {entry : FrameValue} {value : Value}
    {locals stack : List Value} (described : frame.Describes tells locals stack)
    (here : frame.locals[slot]? = some entry) (told : tells entry value) :
    frame.Describes tells (locals.set slot value) stack where
  locals other found there initialized := by
    obtain ⟨held, stands, tells⟩ := described.locals other found there initialized
    by_cases same : slot = other
    · subst other
      cases here.symm.trans there
      obtain ⟨inside, _⟩ := List.getElem?_eq_some_iff.mp stands
      exact ⟨value, by simp [inside], told⟩
    · exact ⟨held, by rwa [List.getElem?_set_ne same], tells⟩
  stack := described.stack

/-- The first slot of a list of values, and those behind its own. -/
theorem slotsOf_cons {first entry : FrameValue} {rest : List FrameValue} {slot : Nat}
    (there : (slotsOf (first :: rest))[slot]? = some entry) (initialized : entry ≠ .uninitialized) :
    slot = 0 ∧ entry = first ∨
      first.size ≤ slot ∧ (slotsOf rest)[slot - first.size]? = some entry := by
  have positive := first.size_pos
  rw [slotsOf, List.cons_append] at there
  obtain _ | slot := slot
  · exact .inl ⟨rfl, by simpa using there.symm⟩
  · rw [List.getElem?_cons_succ, List.getElem?_append] at there
    split at there
    · have lost := List.eq_of_mem_replicate (List.mem_of_getElem? there)
      exact absurd lost initialized
    · rename_i beyond
      simp only [List.length_replicate, Nat.not_lt] at beyond there
      exact .inr ⟨by omega, by rwa [show slot + 1 - first.size = slot - (first.size - 1) by omega]⟩

/-- Placed arguments stand where the first frame has their entries, and the slots before them are
as they were. -/
theorem placeArguments_describes {fault : MachineError} {entries : List FrameValue}
    {values : List Value} (told : List.Forall₂ tells entries values) {start : Nat}
    {locals placed : List Value}
    (done : Activation.placeArguments fault start locals
      (values.zip (entries.map FrameValue.size)) = .ok placed) :
    (∀ slot < start, placed[slot]? = locals[slot]?) ∧
      ∀ slot entry, (slotsOf entries)[slot]? = some entry → entry ≠ .uninitialized →
        ∃ value, placed[start + slot]? = some value ∧ tells entry value := by
  -- Later arguments go to later slots, so what is placed first is not written again.
  induction told generalizing start locals with
  | nil =>
      cases done
      exact ⟨fun _ _ => rfl, by simp [slotsOf]⟩
  | @cons first value rest values here later ih =>
      rw [List.map_cons, List.zip_cons_cons, Activation.placeArguments] at done
      split at done
      · rename_i room
        obtain ⟨before, behind⟩ := ih done
        have positive := first.size_pos
        constructor
        · intro slot below
          rw [before slot (by omega), List.getElem?_set_ne (by omega)]
        · intro slot entry there initialized
          rcases slotsOf_cons there initialized with ⟨rfl, rfl⟩ | ⟨past, there⟩
          · refine ⟨value, ?_, here⟩
            rw [Nat.add_zero, before start (by omega)]
            simp [room]
          · obtain ⟨found, held, tells⟩ := behind _ entry there initialized
            refine ⟨found, ?_, tells⟩
            rwa [show start + slot = start + first.size + (slot - first.size) by omega]
      · cases done

/-- The entry of every parameter has the slots of its type. -/
theorem parameters_each {types : List ValueType} (proper : ∀ type ∈ types, 0 < type.size) :
    (types.filterMap FrameValue.ofType?).map FrameValue.size = types.map ValueType.size := by
  induction types with
  | nil => rfl
  | cons first rest ih =>
      have size := proper first List.mem_cons_self
      have later := ih fun type member => proper type (List.mem_cons_of_mem _ member)
      cases kind : first.kind with
      | none => simp [ValueType.size, kind] at size
      | some kind' =>
          have same : (FrameValue.ofKind kind' first.internalName).size = first.size := by
            simp [FrameValue.size, ValueType.size, kind]
          simp [FrameValue.ofType?, kind, same, later]

/-- Every argument of a method has the slots its place among the arguments gives it. -/
theorem arguments_each {owner : String} {method : Method} {type : MethodType}
    (typed : method.type = .ok type) :
    (arguments owner method type).map FrameValue.size =
      List.replicate method.receiverSlots 1 ++ type.parameters.map ValueType.size := by
  have receiver :
      (if method.isStatic then [] else [FrameValue.reference owner]).map FrameValue.size =
        List.replicate method.receiverSlots 1 := by
    unfold Method.receiverSlots
    split <;> rfl
  rw [arguments, List.map_append, receiver, parameters_each (MethodType.parse_parameters typed)]

end Frame

/-- An invocation begins only with as many arguments as its method takes. -/
theorem Activation.enter_count {method : PreparedMethod} {arguments : List Value}
    {activation : Activation} (done : Activation.enter method arguments = .ok activation) :
    arguments.length = method.parameters.length + method.method.receiverSlots := by
  unfold Activation.enter at done
  dsimp only at done
  split at done
  · exact absurd done Outcome.throw_bind_ne_ok
  · rename_i counted
    exact not_not.mp counted

/-- An invocation starts with what the first frame of its method describes. -/
theorem Activation.enter_described {method : PreparedMethod} {type : MethodType} {first : Frame}
    {arguments : List Value} {activation : Activation} (typed : method.method.type = .ok type)
    (parameters : method.parameters = type.parameters)
    (entered : Frame.entry method.owner method.method = .ok first)
    (told : List.Forall₂ tells (Frame.arguments method.owner method.method type) arguments)
    (done : Activation.enter method arguments = .ok activation) :
    activation.method = method ∧ activation.index = 0 ∧
      first.Describes tells activation.locals activation.stack := by
  unfold Activation.enter at done
  dsimp only at done
  split at done
  · exact absurd done Outcome.throw_bind_ne_ok
  obtain ⟨locals, placed, made⟩ := Outcome.bind_eq_ok.mp done
  cases Outcome.pure_eq_ok.mp made
  refine ⟨rfl, rfl, ?_⟩
  rw [parameters, ← Frame.arguments_each typed] at placed
  obtain ⟨-, held⟩ := Frame.placeArguments_describes told placed
  simp only [Frame.entry, Outcome.bind_eq_ok] at entered
  obtain ⟨type', typed', entered⟩ := entered
  cases typed.symm.trans (Outcome.mapError_eq_ok.mp typed')
  split at entered
  · exact absurd entered Outcome.throw_bind_ne_ok
  cases Outcome.pure_eq_ok.mp entered
  constructor
  · intro slot entry there initialized
    rw [List.getElem?_append] at there
    split at there
    · obtain ⟨value, found, tells⟩ := held slot entry there initialized
      exact ⟨value, by rwa [Nat.zero_add] at found, tells⟩
    · exact absurd (List.eq_of_mem_replicate (List.mem_of_getElem? there)) initialized
  · exact .nil

end StackCoroutine
