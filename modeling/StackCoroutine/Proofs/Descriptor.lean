import StackCoroutine.ValueType

/-!
Descriptors and internal names as texts. Whatever type a scan finds, it has read the descriptor of
that type; so a name denotes an array only if it spells one out, and then the name of the element is
shorter.
-/

namespace StackCoroutine

/-- A name is that of an array, or means to be: it starts with a bracket. -/
def Bracketed (name : String) : Prop := name.startsWith "[" = true

theorem bracketed_iff {name : String} : Bracketed name ↔ ∃ rest, name.toList = '[' :: rest := by
  unfold Bracketed
  rw [String.startsWith_string_iff]
  exact ⟨fun ⟨rest, same⟩ => ⟨rest, same.symm⟩, fun ⟨rest, same⟩ => ⟨rest, same.symm⟩⟩

namespace ValueType

theorem splitName_spells {text name after : List Char}
    (split : splitName text = some (name, after)) : text = name ++ ';' :: after := by
  induction text generalizing name after with
  | nil => simp [splitName] at split
  | cons c rest ih =>
      unfold splitName at split
      by_cases semicolon : c = ';'
      · simp [semicolon] at split
        simp [← split.1, ← split.2, semicolon]
      · cases tail : splitName rest with
        | none => simp [semicolon, tail] at split
        | some pair =>
            obtain ⟨front, back⟩ := pair
            simp [semicolon, tail] at split
            simp [← split.1, ← split.2, ih tail]

/-- A scan reads the descriptor of the type it finds. -/
theorem scan_spells {text after : List Char} {type : ValueType}
    (scanned : scan text = .ok (type, after)) : text = type.descriptorChars ++ after := by
  fun_induction scan text generalizing type after with
  | case12 rest name back split =>
      simp at scanned
      simp [← scanned.1, ← scanned.2, descriptorChars, splitName_spells split]
  | case15 rest element back _ _ ih =>
      rename_i found _
      simp at scanned
      simp [← scanned.1, ← scanned.2, descriptorChars, ih found]
  | _ => cases scanned <;> rfl

theorem parse_spells {text : String} {type : ValueType} (parsed : parse text = .ok type) :
    text.toList = type.descriptorChars := by
  unfold parse at parsed
  split at parsed
  · simp at parsed
  · rename_i found
    cases parsed
    simpa using scan_spells found
  · simp at parsed

theorem parse_descriptor {text : String} {type : ValueType} (parsed : parse text = .ok type) :
    type.descriptor = text :=
  String.toList_inj.mp (by simp [descriptor, parse_spells parsed])

/-- An internal name denotes an array only if it spells the array out. -/
theorem ofInternalName_array {name : String} {element : ValueType}
    (denotes : ofInternalName name = .ok (.array element)) :
    name.toList = '[' :: element.descriptorChars := by
  unfold ofInternalName at denotes
  split at denotes
  · exact parse_spells denotes
  · simp at denotes

theorem ofInternalName_class {name : String} (plain : ¬ Bracketed name) :
    ofInternalName name = .ok (.object name) := by
  exact if_neg plain

/-- The name of an array tells its element type. -/
theorem descriptorChars_internalName {element : ValueType} (reference : element.isReference) :
    element.descriptorChars = element.internalName.toList ∨
      element.descriptorChars = 'L' :: element.internalName.toList ++ [';'] := by
  cases element <;> simp_all [isReference, internalName, descriptorChars, descriptor]

theorem internalName_shorter {name : String} {element : ValueType}
    (denotes : ofInternalName name = .ok (.array element)) (reference : element.isReference) :
    element.internalName.length < name.length := by
  have spelled := congrArg List.length (ofInternalName_array denotes)
  rcases descriptorChars_internalName reference with same | wrapped
  · simp only [same, List.length_cons, String.length_toList] at spelled
    omega
  · simp only [wrapped, List.length_cons, List.length_append, String.length_toList] at spelled
    omega

end ValueType

end StackCoroutine
