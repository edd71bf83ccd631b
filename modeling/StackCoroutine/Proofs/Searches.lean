import StackCoroutine.Proofs.Supertypes

/-!
The searches of a hierarchy as they run, without a bound. A search for a supertype takes one class
after the other from those that wait, a walk tries one superclass after the other, and a test of
assignability goes down into arrays. Each rule below is one step, so that a derivation is a search that
has come to its end. In an acyclic hierarchy all of them do, and the bounds of `reaches`, `isAssignable`
and `firstTaking` are never what ends them.
-/

namespace StackCoroutine.Hierarchy

/-- A search upward from the classes that wait ends and tells whether it came to the target. The
superclass of a class is looked at before its interfaces, and those from the last to the first. -/
inductive Searches (hierarchy : Hierarchy) (target : String) : List String → Bool → Prop where
  | missed : Searches hierarchy target [] false
  | found {rest : List String} : Searches hierarchy target (target :: rest) true
  | passed {name : String} {rest : List String} {answer : Bool} : name ≠ target →
      Searches hierarchy target
        ((hierarchy.superClass? name).toList ++ (hierarchy.interfaces name).reverse ++ rest) answer →
      Searches hierarchy target (name :: rest) answer

/-- A test whether a reference can stand where another is expected ends with the answer. -/
inductive Assigns (hierarchy : Hierarchy) : String → String → Bool → Prop where
  | plainly {target source : String} : target = source ∨ target = Names.object →
      Assigns hierarchy target source true
  | elements {target source : String} {wanted given : ValueType} {answer : Bool} :
      ¬ (target = source ∨ target = Names.object) → Bracketed source →
      ValueType.ofInternalName target = .ok (.array wanted) →
      ValueType.ofInternalName source = .ok (.array given) →
      wanted.isReference ∧ given.isReference →
      Assigns hierarchy wanted.internalName given.internalName answer →
      Assigns hierarchy target source answer
  | primitives {target source : String} {wanted given : ValueType} :
      ¬ (target = source ∨ target = Names.object) → Bracketed source →
      ValueType.ofInternalName target = .ok (.array wanted) →
      ValueType.ofInternalName source = .ok (.array given) →
      ¬ (wanted.isReference ∧ given.isReference) →
      Assigns hierarchy target source (wanted = given)
  | different {target source : String} :
      ¬ (target = source ∨ target = Names.object) → Bracketed source →
      (∀ wanted given, ValueType.ofInternalName target = .ok (.array wanted) →
        ValueType.ofInternalName source ≠ .ok (.array given)) →
      Assigns hierarchy target source false
  | above {target source : String} {answer : Bool} :
      ¬ (target = source ∨ target = Names.object) → ¬ Bracketed source →
      Searches hierarchy target [source] answer → Assigns hierarchy target source answer

/-- A walk up the superclasses ends at the first that takes the source, or at the root. -/
inductive Walks (hierarchy : Hierarchy) (source : String) : Option String → String → Prop where
  | ended : Walks hierarchy source none Names.object
  | taken {name : String} : Assigns hierarchy name source true →
      Walks hierarchy source (some name) name
  | passed {name last : String} : Assigns hierarchy name source false →
      Walks hierarchy source (hierarchy.superClass? name) last →
      Walks hierarchy source (some name) last

/-- A merge of two references ends with the class they have in common. -/
inductive Joins (hierarchy : Hierarchy) (a b : String) : String → Prop where
  | first : Assigns hierarchy a b true → Joins hierarchy a b a
  | second : Assigns hierarchy a b false → Assigns hierarchy b a true → Joins hierarchy a b b
  | root : Assigns hierarchy a b false → Assigns hierarchy b a false →
      (a.startsWith "[" || b.startsWith "[" || hierarchy.isInterface a ||
        hierarchy.isInterface b) = true →
      Joins hierarchy a b Names.object
  | above {name : String} : Assigns hierarchy a b false → Assigns hierarchy b a false →
      (a.startsWith "[" || b.startsWith "[" || hierarchy.isInterface a ||
        hierarchy.isInterface b) = false →
      Walks hierarchy b (hierarchy.superClass? a) name → Joins hierarchy a b name

variable {hierarchy : Hierarchy}

/-! At every point of a search only one step is possible, so that it has one end at most. -/

theorem Searches.unique {target : String} {pending : List String} {first second : Bool}
    (one : Searches hierarchy target pending first)
    (other : Searches hierarchy target pending second) : first = second := by
  induction one with
  | missed =>
      cases other
      rfl
  | found =>
      cases other with
      | found => rfl
      | passed different => exact absurd rfl different
  | passed different _ ih =>
      cases other with
      | found => exact absurd rfl different
      | passed _ later => exact ih later

theorem Assigns.unique {target source : String} {first second : Bool}
    (one : Assigns hierarchy target source first)
    (other : Assigns hierarchy target source second) : first = second := by
  induction one with
  | plainly plain => cases other <;> grind
  | elements _ _ _ _ _ _ ih => cases other <;> grind
  | primitives => cases other <;> grind
  | different => cases other <;> grind
  | above _ _ searched =>
      cases other with
      | above _ _ searched' => exact searched.unique searched'
      | _ => grind

theorem Walks.unique {source : String} {start : Option String} {first second : String}
    (one : Walks hierarchy source start first) (other : Walks hierarchy source start second) :
    first = second := by
  induction one with
  | ended =>
      cases other
      rfl
  | taken takes =>
      cases other with
      | taken => rfl
      | passed refuses => cases takes.unique refuses
  | passed refuses _ ih =>
      cases other with
      | taken takes => cases takes.unique refuses
      | passed _ later => exact ih later

theorem Joins.unique {a b first second : String} (one : Joins hierarchy a b first)
    (other : Joins hierarchy a b second) : first = second := by
  -- The rules exclude each other by the answers of their tests.
  have decided : ∀ {target source : String}, Assigns hierarchy target source true →
      ¬ Assigns hierarchy target source false := by
    intro target source takes refuses
    cases takes.unique refuses
  cases one with
  | above _ _ _ walked =>
      cases other with
      | above _ _ _ walked' => exact walked.unique walked'
      | _ => grind
  | _ => cases other <;> grind

theorem reaches_iff_path (acyclic : hierarchy.Acyclic) {source target : String} :
    hierarchy.reaches target hierarchy.height source = true ↔
      Relation.ReflTransGen hierarchy.Parent source target :=
  ⟨reaches_path, reaches_of_path acyclic⟩

/-- The height of the hierarchy is as good for the supertypes of a class as for the class. -/
theorem reaches_height (acyclic : hierarchy.Acyclic) (target source : String) :
    hierarchy.reaches target hierarchy.height source =
      (source == target ||
        (hierarchy.parents source).any (hierarchy.reaches target hierarchy.height)) := by
  rw [Bool.eq_iff_iff, reaches_iff_path acyclic]
  simp only [Bool.or_eq_true, beq_iff_eq, List.any_eq_true, reaches_iff_path acyclic]
  constructor
  · intro path
    rcases path.cases_head with same | ⟨parent, above, later⟩
    · exact .inl same
    · exact .inr ⟨parent, above, later⟩
  · rintro (rfl | ⟨parent, above, later⟩)
    · exact .refl
    · exact later.head above

/-- A class that waits is searched before those behind it, whatever is above it. -/
theorem Searches.cons (acyclic : hierarchy.Acyclic) {target : String} (name : String)
    {rest : List String} {answer : Bool} (later : Searches hierarchy target rest answer) :
    Searches hierarchy target (name :: rest)
      (hierarchy.reaches target hierarchy.height name || answer) := by
  -- On the number of classes above the name, which is smaller for its supertypes.
  induction size : (hierarchy.classesAbove name).card using Nat.strongRecOn
    generalizing name rest answer with
  | _ _ ih =>
      by_cases here : name = target
      · subst here
        rw [reaches_self, Bool.true_or]
        exact .found
      have upward : ∀ names : List String, (∀ parent ∈ names, hierarchy.Parent name parent) →
          Searches hierarchy target (names ++ rest)
            (names.any (hierarchy.reaches target hierarchy.height) || answer) := by
        intro names above
        induction names with
        | nil => simpa using later
        | cons parent others searched =>
            have behind := searched fun other member => above other (List.mem_cons_of_mem _ member)
            have smaller := card_classesAbove_lt acyclic (above parent List.mem_cons_self)
            rw [List.any_cons, Bool.or_assoc]
            exact ih _ (size ▸ smaller) parent behind rfl
      have searched := upward (hierarchy.parents name).reverse fun parent member =>
        List.mem_reverse.mp member
      have order : (hierarchy.parents name).reverse =
          (hierarchy.superClass? name).toList ++ (hierarchy.interfaces name).reverse := by
        cases found : hierarchy.superClass? name <;> simp [parents, found]
      rw [List.any_reverse, order] at searched
      have missed : (name == target) = false := by simpa using here
      rw [reaches_height acyclic, missed, Bool.false_or]
      exact .passed here searched

/-- A test of assignability ends, with the answer of the bounded one. -/
theorem Assigns.isAssignable (acyclic : hierarchy.Acyclic) (target source : String) :
    Assigns hierarchy target source (hierarchy.isAssignable target source) := by
  -- On the length of the source: the element of an array has a shorter name.
  induction length : source.length using Nat.strongRecOn generalizing target source with
  | _ _ ih =>
      by_cases plain : target = source ∨ target = Names.object
      · have takes : hierarchy.isAssignable target source = true := by
          rcases plain with rfl | rfl
          · exact isAssignable_refl target
          · exact isAssignable_object source
        rw [takes]
        exact .plainly plain
      have different : target ≠ source ∧ target ≠ Names.object := not_or.mp plain
      by_cases bracketed : Bracketed source
      · have iff := @isAssignable_array hierarchy target source bracketed different.1 different.2
        by_cases arrays : ∃ wanted given, ValueType.ofInternalName target = .ok (.array wanted) ∧
            ValueType.ofInternalName source = .ok (.array given)
        · obtain ⟨wanted, given, denotes, denotes'⟩ := arrays
          simp only [denotes, denotes', Except.ok.injEq, ValueType.array.injEq, exists_eq_left',
            exists_and_left] at iff
          by_cases references : wanted.isReference ∧ given.isReference
          · rw [if_pos references, ← Bool.eq_iff_iff] at iff
            rw [iff]
            have shorter := ValueType.internalName_shorter denotes' references.2
            exact .elements plain bracketed denotes denotes' references (ih _ (length ▸ shorter) _ _ rfl)
          · rw [if_neg references, ← decide_eq_true_iff (p := wanted = given),
              ← Bool.eq_iff_iff] at iff
            rw [iff]
            exact .primitives plain bracketed denotes denotes' references
        · have refused : hierarchy.isAssignable target source = false := by
            rw [← Bool.not_eq_true, iff]
            rintro ⟨wanted, given, denotes, denotes', _⟩
            exact arrays ⟨wanted, given, denotes, denotes'⟩
          rw [refused]
          exact .different plain bracketed fun wanted given denotes denotes' =>
            arrays ⟨wanted, given, denotes, denotes'⟩
      · have search := @Searches.cons hierarchy acyclic target source _ _ .missed
        have iff : hierarchy.isAssignable target source = true ↔
            hierarchy.reaches target hierarchy.height source = true := by
          rw [isAssignable_class bracketed]
          grind
        rw [Bool.or_false, ← Bool.eq_iff_iff.mpr iff] at search
        exact .above plain bracketed search

/-- A walk up the superclasses ends where the bounded one does. -/
theorem Walks.firstTaking (acyclic : hierarchy.Acyclic) (source : String) {steps : Nat}
    {start : Option String}
    (enough : ∀ name, start = some name → (hierarchy.classesAbove name).card < steps) :
    Walks hierarchy source start (hierarchy.firstTaking source steps start) := by
  induction steps generalizing start with
  | zero =>
      cases start with
      | none => exact .ended
      | some name => exact absurd (enough name rfl) (Nat.not_lt_zero _)
  | succ steps ih =>
      cases start with
      | none => exact .ended
      | some name =>
          have tested := Assigns.isAssignable acyclic name source
          unfold Hierarchy.firstTaking
          cases takes : hierarchy.isAssignable name source with
          | true => exact .taken (takes ▸ tested)
          | false =>
              refine .passed (takes ▸ tested) (ih ?_)
              intro parent found
              have above : hierarchy.Parent name parent := by simp [Parent, parents, found]
              have fewer := card_classesAbove_lt acyclic above
              have bounded := enough name rfl
              omega

/-- A merge of references ends with the class it is modelled to give. -/
theorem Joins.commonSuper (acyclic : hierarchy.Acyclic) (a b : String) :
    Joins hierarchy a b (hierarchy.commonSuper a b) := by
  have forth := Assigns.isAssignable acyclic a b
  have back := Assigns.isAssignable acyclic b a
  unfold Hierarchy.commonSuper
  cases first : hierarchy.isAssignable a b with
  | true => exact .first (first ▸ forth)
  | false =>
      rw [first] at forth
      cases second : hierarchy.isAssignable b a with
      | true => exact .second forth (second ▸ back)
      | false =>
          rw [second] at back
          cases outside : (a.startsWith "[" || b.startsWith "[" || hierarchy.isInterface a ||
              hierarchy.isInterface b) with
          | true => exact .root forth back outside
          | false =>
              refine .above forth back outside (Walks.firstTaking acyclic b fun name _ => ?_)
              exact Nat.lt_succ_of_le (card_classesAbove_le name)

end StackCoroutine.Hierarchy
