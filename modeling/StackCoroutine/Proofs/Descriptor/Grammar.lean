import StackCoroutine.MethodType
import StackCoroutine.Proofs.Descriptor

/-!
The grammar of descriptors. A type can be spelled if no class name in it holds a semicolon, which
would end the name too early, and no array in it is one of void. A scan takes the descriptor of such
a type from the start of a text, whatever follows it, and finds no other types. So a text is parsed
exactly if it is the descriptor of a type that can be spelled, and that type is found; the same holds
of methods, whose parameters are not void.
-/

namespace StackCoroutine

namespace ValueType

/-- No class name holds a semicolon, and no array is one of void. -/
def Spellable : ValueType → Prop
  | .object name => ';' ∉ name.toList
  | .array element => element ≠ .void ∧ element.Spellable
  | _ => True

instance Spellable.decidable : DecidablePred Spellable
  | .object name => inferInstanceAs (Decidable (';' ∉ name.toList))
  | .array element =>
      have := Spellable.decidable element
      inferInstanceAs (Decidable (element ≠ .void ∧ element.Spellable))
  | .void | .boolean | .byte | .char | .short | .int | .long | .float | .double => isTrue trivial

theorem splitName_append {name : List Char} (plain : ';' ∉ name) (after : List Char) :
    splitName (name ++ ';' :: after) = some (name, after) := by
  induction name with
  | nil => simp [splitName]
  | cons c rest ih =>
      rw [List.mem_cons, not_or] at plain
      have letter : c ≠ ';' := Ne.symm plain.1
      simp [splitName, letter, ih plain.2]

theorem splitName_plain {text name after : List Char}
    (split : splitName text = some (name, after)) : ';' ∉ name := by
  induction text generalizing name after with
  | nil => simp [splitName] at split
  | cons c rest ih =>
      unfold splitName at split
      by_cases semicolon : c = ';'
      · simp only [semicolon, if_true, Option.some.injEq, Prod.mk.injEq] at split
        simp [← split.1]
      · cases tail : splitName rest with
        | none => simp [semicolon, tail] at split
        | some pair =>
            obtain ⟨front, back⟩ := pair
            simp only [semicolon, tail, if_false, Option.some.injEq, Prod.mk.injEq] at split
            rw [← split.1, List.mem_cons, not_or]
            exact ⟨Ne.symm semicolon, ih tail⟩

/-- A scan takes a descriptor from the start of a text and leaves what follows. -/
theorem scan_descriptorChars {type : ValueType} (spellable : type.Spellable) (after : List Char) :
    scan (type.descriptorChars ++ after) = .ok (type, after) := by
  induction type with
  | object name =>
      have split := splitName_append spellable after
      simp [descriptorChars, scan, split]
  | array element ih =>
      have found := ih spellable.2
      simp [descriptorChars, scan, found, spellable.1]
  | _ => rfl

/-- Whatever type a scan finds can be spelled. -/
theorem scan_spellable {text after : List Char} {type : ValueType}
    (scanned : scan text = .ok (type, after)) : type.Spellable := by
  fun_induction scan text generalizing type after with
  | case12 rest name back split =>
      cases scanned
      simpa [Spellable] using splitName_plain split
  | case15 rest element back _ proper ih =>
      cases scanned
      exact ⟨proper, ih (by assumption)⟩
  | _ => cases scanned <;> trivial

/-- A text is parsed exactly if it is the descriptor of a type that can be spelled. -/
theorem parse_eq_ok {text : String} {type : ValueType} :
    parse text = .ok type ↔ type.Spellable ∧ type.descriptor = text := by
  constructor
  · intro parsed
    refine ⟨?_, parse_descriptor parsed⟩
    unfold parse at parsed
    split at parsed
    · cases parsed
    · rename_i found
      cases parsed
      exact scan_spellable found
    · cases parsed
  · rintro ⟨spellable, rfl⟩
    have scanned := scan_descriptorChars spellable []
    rw [List.append_nil] at scanned
    simp [parse, descriptor, scanned]

/-- The name of a reference type denotes it, unless it is a class with the name of an array. -/
theorem ofInternalName_internalName {type : ValueType} (reference : type.isReference)
    (spellable : type.Spellable) (proper : ∀ name, type = .object name → ¬ Bracketed name) :
    ofInternalName type.internalName = .ok type := by
  cases type with
  | object name => exact ofInternalName_class (proper name rfl)
  | array element =>
      have bracketed : Bracketed (array element).internalName :=
        bracketed_iff.mpr ⟨element.descriptorChars, by simp [internalName, descriptor, descriptorChars]⟩
      have parsed : ofInternalName (array element).internalName = parse (array element).descriptor :=
        if_pos bracketed
      rw [parsed]
      exact parse_eq_ok.mpr ⟨spellable, rfl⟩
  | _ => cases reference

/-- A descriptor does not start with the parenthesis that ends the parameters. -/
theorem descriptorChars_cons (type : ValueType) :
    ∃ c rest, type.descriptorChars = c :: rest ∧ c ≠ ')' := by
  cases type <;> exact ⟨_, _, rfl, by decide⟩

end ValueType

namespace MethodType

/-- Parameters and result can be spelled, and no parameter is void. -/
def Spellable (type : MethodType) : Prop :=
  (∀ parameter ∈ type.parameters, parameter ≠ .void ∧ parameter.Spellable) ∧ type.result.Spellable

instance (type : MethodType) : Decidable type.Spellable := inferInstanceAs (Decidable (_ ∧ _))

/-- The parameters are taken up to the first parenthesis that is not inside a class name. -/
theorem scanParameters_append {types : List ValueType}
    (spellable : ∀ type ∈ types, type ≠ .void ∧ type.Spellable) (after : List Char) :
    scanParameters (types.flatMap ValueType.descriptorChars ++ ')' :: after) =
      .ok (types, after) := by
  induction types with
  | nil => simp [scanParameters]
  | cons first rest ih =>
      obtain ⟨proper, here⟩ := spellable first List.mem_cons_self
      have later := ih fun type member => spellable type (List.mem_cons_of_mem _ member)
      have scanned := ValueType.scan_descriptorChars here
        (rest.flatMap ValueType.descriptorChars ++ ')' :: after)
      obtain ⟨c, others, spelled, letter⟩ := first.descriptorChars_cons
      rw [spelled, List.cons_append] at scanned
      rw [List.flatMap_cons, List.append_assoc, spelled, List.cons_append, scanParameters,
        if_neg letter]
      -- The scan of the first parameter is known, but its outcome is part of the match.
      split
      · rename_i failed
        rw [scanned] at failed
        cases failed
      · rename_i found
        rw [scanned] at found
        cases found
        rw [if_neg proper, later]

theorem scanParameters_spells {text after : List Char} {types : List ValueType}
    (scanned : scanParameters text = .ok (types, after)) :
    text = types.flatMap ValueType.descriptorChars ++ ')' :: after ∧
      ∀ type ∈ types, type ≠ .void ∧ type.Spellable := by
  fun_induction scanParameters text generalizing types after with
  | case2 =>
      cases scanned
      exact ⟨rfl, by simp⟩
  | case6 c rest _ first behind found proper others last later ih =>
      cases scanned
      obtain ⟨spelled, spellable⟩ := ih later
      constructor
      · rw [List.flatMap_cons, List.append_assoc, ← spelled]
        exact ValueType.scan_spells found
      · intro type member
        rcases List.mem_cons.mp member with rfl | member
        · exact ⟨proper, ValueType.scan_spellable found⟩
        · exact spellable type member
  | _ => cases scanned

/-- A text is parsed exactly if it is the descriptor of a method type that can be spelled. -/
theorem parse_eq_ok {text : String} {type : MethodType} :
    parse text = .ok type ↔ type.Spellable ∧ type.descriptor = text := by
  constructor
  · intro parsed
    unfold parse at parsed
    split at parsed
    · rename_i rest opened
      split at parsed
      · cases parsed
      · cases parsed
      · rename_i parameters after scanned
        obtain ⟨spelled, spellable⟩ := scanParameters_spells scanned
        split at parsed
        · cases parsed
        · rename_i result found
          cases parsed
          refine ⟨⟨spellable, ValueType.scan_spellable found⟩, ?_⟩
          apply String.toList_inj.mp
          rw [opened, spelled, ValueType.scan_spells found]
          simp [descriptor]
        · cases parsed
    · cases parsed
  · rintro ⟨⟨parameters, result⟩, rfl⟩
    have scanned := scanParameters_append parameters type.result.descriptorChars
    have found := ValueType.scan_descriptorChars result []
    rw [List.append_nil] at found
    simp [parse, descriptor, scanned, found]

end MethodType

/-- Descriptors are parsed exactly as they are written: of types in which no class name holds a
semicolon and no array is one of void, and of methods of such types without a parameter of void. The
internal name of such a reference type denotes it, unless it is a class with the name of an array. -/
theorem descriptors_denote_exactly :
    (∀ text type, ValueType.parse text = .ok type ↔ type.Spellable ∧ type.descriptor = text) ∧
      (∀ text type, MethodType.parse text = .ok type ↔
        type.Spellable ∧ type.descriptor = text) ∧
      ∀ type : ValueType, type.isReference → type.Spellable →
        (∀ name, type = .object name → ¬ Bracketed name) →
        ValueType.ofInternalName type.internalName = .ok type :=
  ⟨fun _ _ => ValueType.parse_eq_ok, fun _ _ => MethodType.parse_eq_ok,
    fun _ => ValueType.ofInternalName_internalName⟩

/-- Letters, parentheses and brackets inside class names end nothing, and an array of void is refused
where it stands as a parameter. -/
theorem descriptors_denote_exactly_nested :
    MethodType.parse "(J[[LV)[(I;[LL;Z)[Ldemo/Node;" =
        .ok ⟨[.long, .array (.array (.object "V)[(I")), .array (.object "L"), .boolean],
          .array (.object "demo/Node")⟩ ∧
      (∀ type, MethodType.parse "(J[V)I" ≠ .ok type) ∧
      ValueType.ofInternalName "[[LV)[(I;" = .ok (.array (.array (.object "V)[(I"))) := by
  obtain ⟨-, methods, references⟩ := descriptors_denote_exactly
  refine ⟨(methods _ _).mpr ⟨by decide, rfl⟩, ?_, ?_⟩
  · have refused : (MethodType.parse "(J[V)I").toOption = none := by decide +kernel
    intro type parsed
    rw [parsed] at refused
    cases refused
  · exact references (.array (.array (.object "V)[(I"))) rfl (by decide) (by simp)

end StackCoroutine
