import Mathlib.Data.List.Basic
import StackCoroutine.Instrument.Class
import StackCoroutine.Machine.ClassTable
import StackCoroutine.Proofs.Outcome

/-!
Fields for continuation points. The name of such a field tells method and point, and instrumenting a
class adds exactly the fields of its points; so in a class loaded as it was instrumented, a
continuation point is found if and only if the report of the class lists it.
-/

namespace StackCoroutine

namespace SavedFrame

/-! ### Names -/

theorem signedName_toList (value : Int32) :
    (signedName value).toList =
      (if value < 0 then ['N'] else []) ++ Nat.toDigits 10 value.toInt.natAbs := by
  unfold signedName
  rw [String.toList_append]
  congr 1
  · split <;> rfl
  · exact Nat.toList_repr

theorem digit_of_signedName {value : Int32} {letter : Char}
    (member : letter ∈ (signedName value).toList) : letter = 'N' ∨ letter.isDigit = true := by
  rw [signedName_toList] at member
  rcases List.mem_append.mp member with sign | digit
  · split at sign
    · exact Or.inl (List.mem_singleton.mp sign)
    · cases sign
  · exact Or.inr (Nat.isDigit_of_mem_toDigits (by decide) (by decide) digit)

theorem underscore_not_mem_signedName (value : Int32) : '_' ∉ (signedName value).toList := by
  intro member
  rcases digit_of_signedName member with sign | digit
  · cases sign
  · cases digit

theorem toDigits_injective {a b : Nat} (same : Nat.toDigits 10 a = Nat.toDigits 10 b) : a = b := by
  calc
    a = Nat.ofDigitChars 10 (Nat.toDigits 10 a) 0 := Nat.ofDigitChars_ten_toDigits.symm
    _ = Nat.ofDigitChars 10 (Nat.toDigits 10 b) 0 := by rw [same]
    _ = b := Nat.ofDigitChars_ten_toDigits

/-- Digits do not begin with a sign. -/
theorem sign_not_toDigits {number : Nat} {rest : List Char} :
    'N' :: rest ≠ Nat.toDigits 10 number := by
  intro same
  have digit : 'N'.isDigit = true := by
    refine Nat.isDigit_of_mem_toDigits (by decide) (by decide) (?_ : 'N' ∈ Nat.toDigits 10 number)
    exact same ▸ List.mem_cons_self
  cases digit

theorem signedName_injective {a b : Int32} (same : signedName a = signedName b) : a = b := by
  have letters : (signedName a).toList = (signedName b).toList := congrArg String.toList same
  rw [signedName_toList, signedName_toList] at letters
  apply Int32.toInt_inj.mp
  -- The sign is read off the first letter, and the digits give the rest.
  by_cases negative : a < 0 <;> by_cases negative' : b < 0
  · rw [if_pos negative, if_pos negative'] at letters
    have digits := toDigits_injective (List.cons.inj letters).2
    rw [Int32.lt_iff_toInt_lt] at negative negative'
    have zero : (0 : Int32).toInt = 0 := rfl
    omega
  · rw [if_pos negative, if_neg negative'] at letters
    exact absurd letters sign_not_toDigits
  · rw [if_neg negative, if_pos negative'] at letters
    exact absurd letters.symm sign_not_toDigits
  · rw [if_neg negative, if_neg negative'] at letters
    have digits := toDigits_injective letters
    rw [Int32.lt_iff_toInt_lt] at negative negative'
    have zero : (0 : Int32).toInt = 0 := rfl
    omega

theorem pointFieldName_toList (methodId point : Int32) :
    (pointFieldName methodId point).toList =
      Protocol.pointField.toList ++
        ((signedName methodId).toList ++ '_' :: (signedName point).toList) := by
  simp [pointFieldName, String.toList_append]

/-- The name of the field for a point tells the method and the point. -/
theorem pointFieldName_injective {methodId point otherId otherPoint : Int32}
    (same : pointFieldName methodId point = pointFieldName otherId otherPoint) :
    methodId = otherId ∧ point = otherPoint := by
  have letters := congrArg String.toList same
  rw [pointFieldName_toList, pointFieldName_toList] at letters
  -- No name of a number has an underscore, so both names part at the same place.
  obtain ⟨ids, _, points⟩ := (List.append_cons_inj_of_notMem
    (underscore_not_mem_signedName methodId) (underscore_not_mem_signedName point)).mp
      (List.append_cancel_left letters)
  exact ⟨signedName_injective (String.toList_injective ids),
    signedName_injective (String.toList_injective points)⟩

/-- The field that says a class is instrumented is none of a point. -/
theorem pointFieldName_ne_marker (methodId point : Int32) :
    pointFieldName methodId point ≠ Protocol.markerField := by
  intro same
  have letters := congrArg (fun name : String => name.toList[13]?) same
  simp only [pointFieldName_toList] at letters
  rw [List.getElem?_append_left (by decide)] at letters
  exact absurd letters (by decide)

end SavedFrame

/-- The method has no body, or takes no context. -/
def Method.Contextless (hierarchy : Hierarchy) (method : Method) : Prop :=
  method.isAbstract = true ∨ ∃ type, method.type = .ok type ∧ contextParameter? hierarchy type = none

namespace ClassFile

/-! ### Fields -/

/-- Nothing about the class says that it is instrumented. -/
def Unmarked (file : ClassFile) : Prop :=
  ∀ field ∈ file.fields, field.name ≠ Protocol.markerField ∧
    ¬Protocol.pointField.toList <+: field.name.toList

/-- The reports list a point, by the identity of its method and its number. -/
def Lists (reports : List MethodReport) (methodId : Int32) (point : Int32) : Prop :=
  ∃ report ∈ reports, ∃ number < report.pointCount,
    report.methodId = methodId ∧ Int32.ofNat number = point

variable {hierarchy : Hierarchy} {settings : InstrumentSettings} {file output : ClassFile}
  {report : ClassReport}

/-- The fields of the points of a method are added to those there are, and no others. -/
theorem mem_addPointFields (report : MethodReport) (fields : List Field) (name : String) :
    name ∈ (addPointFields report fields).map Field.name ↔ name ∈ fields.map Field.name ∨
      ∃ number < report.pointCount,
        SavedFrame.pointFieldName report.methodId (Int32.ofNat number) = name := by
  have added : ∀ numbers : List Nat, name ∈ (numbers.foldl (fun fields point =>
        let number := Int32.ofNat point
        let name := SavedFrame.pointFieldName report.methodId number
        if fields.any fun field => field.name == name then fields
        else fields ++ [syntheticField name "I" (.int number)]) fields).map Field.name ↔
      name ∈ fields.map Field.name ∨ ∃ number ∈ numbers,
        SavedFrame.pointFieldName report.methodId (Int32.ofNat number) = name := by
    intro numbers
    induction numbers generalizing fields with
    | nil => simp
    | cons number rest ih =>
        rw [List.foldl_cons, ih]
        dsimp only
        split
        · rename_i given
          obtain ⟨field, member, same⟩ := List.any_eq_true.mp given
          have there : SavedFrame.pointFieldName report.methodId (Int32.ofNat number) ∈
              fields.map Field.name :=
            List.mem_map.mpr ⟨field, member, beq_iff_eq.mp same⟩
          rw [List.exists_mem_cons_iff]
          grind
        · simp only [List.map_append, List.mem_append, List.map_cons, List.map_nil,
            List.mem_singleton, List.exists_mem_cons_iff, syntheticField]
          grind
  have counted := added (List.range report.pointCount)
  simp only [List.mem_range] at counted
  exact counted

/-- The fields of a class on its way are its own and those of the points reported so far. -/
def Progress.Fielded (file : ClassFile) (progress : Progress) : Prop :=
  ∀ name, name ∈ progress.fields.map Field.name ↔ name ∈ file.fields.map Field.name ∨
    ∃ methodId point, Lists progress.reports methodId point ∧
      SavedFrame.pointFieldName methodId point = name

theorem lists_append {reports : List MethodReport} {report : MethodReport} {methodId point : Int32} :
    Lists (reports ++ [report]) methodId point ↔ Lists reports methodId point ∨
      ∃ number < report.pointCount, report.methodId = methodId ∧ Int32.ofNat number = point := by
  simp [Lists, or_and_right, exists_or]

/-- A method is kept, as it takes no context or has no continuation point, or it is instrumented. -/
theorem instrumentNext_cases {owner : String} {progress next : Progress} {method : Method}
    (done : instrumentNext hierarchy settings owner progress method = .ok next) :
    (method.Contextless hierarchy ∧ next = progress.keep method) ∨
      next = { progress.keep method with suspendable := true } ∨
      ∃ finished report, method.isAbstract = false ∧
        method.instrument hierarchy settings owner = .ok (some (finished, report)) ∧ next = {
          fields := addPointFields report progress.fields
          methods := progress.methods ++ [finished]
          reports := progress.reports ++ [report]
          suspendable := true } := by
  unfold instrumentNext at done
  split at done
  · rename_i bodiless
    cases done
    exact .inl ⟨.inl bodiless, rfl⟩
  rename_i concrete
  obtain ⟨type, typed, done⟩ := Outcome.bind_eq_ok.mp done
  split at done
  · rename_i untaken
    cases done
    exact .inl ⟨.inr ⟨type, Outcome.mapError_eq_ok.mp typed, Option.isNone_iff_eq_none.mp untaken⟩,
      rfl⟩
  obtain ⟨result, rewritten, done⟩ := Outcome.bind_eq_ok.mp done
  rcases result with _ | ⟨finished, report⟩ <;> cases done
  · exact .inr (.inl rfl)
  · exact .inr (.inr ⟨finished, report, Bool.eq_false_iff.mpr concrete, rewritten, rfl⟩)

theorem instrumentNext_fielded {owner : String} {progress next : Progress} {method : Method}
    (fielded : progress.Fielded file)
    (done : instrumentNext hierarchy settings owner progress method = .ok next) :
    next.Fielded file := by
  rcases instrumentNext_cases done with ⟨_, rfl⟩ | rfl | ⟨finished, report, _, _, rfl⟩
  · exact fielded
  · exact fielded
  · intro name
    rw [mem_addPointFields, fielded name]
    simp only [lists_append]
    constructor
    · rintro ((own | ⟨methodId, point, listed, named⟩) | ⟨number, below, named⟩)
      · exact Or.inl own
      · exact Or.inr ⟨methodId, point, Or.inl listed, named⟩
      · exact Or.inr ⟨_, _, Or.inr ⟨number, below, rfl, rfl⟩, named⟩
    · rintro (own | ⟨methodId, point, listed | ⟨number, below, rfl, rfl⟩, named⟩)
      · exact Or.inl (Or.inl own)
      · exact Or.inl (Or.inr ⟨methodId, point, listed, named⟩)
      · exact Or.inr ⟨number, below, named⟩

/-- The fields for points of an instrumented class are those of the points its report lists. -/
theorem instrument_fields (unmarked : file.Unmarked)
    (done : file.instrument hierarchy settings = .ok (output, report)) (methodId point : Int32) :
    SavedFrame.pointFieldName methodId point ∈ output.fields.map Field.name ↔
      Lists report.methods methodId point := by
  have foreign : SavedFrame.pointFieldName methodId point ∉ file.fields.map Field.name := by
    intro member
    obtain ⟨field, inside, named⟩ := List.mem_map.mp member
    refine (unmarked field inside).2 ?_
    rw [named, SavedFrame.pointFieldName_toList]
    exact List.prefix_append _ _
  have absent : file.findField? Protocol.markerField = none :=
    List.find?_eq_none.mpr fun field inside => by simpa using (unmarked field inside).1
  unfold instrument at done
  rw [absent] at done
  dsimp only at done
  split at done
  · cases done
    simpa [Lists] using foreign
  obtain ⟨progress, folded, made⟩ := Outcome.bind_eq_ok.mp done
  have fielded := Outcome.foldlM_keeps (Progress.Fielded file)
    (fun _ _ _ fielded stepped => instrumentNext_fielded fielded stepped)
    (fun name => by simp [Lists]) folded
  cases made
  have listed : SavedFrame.pointFieldName methodId point ∈ progress.fields.map Field.name ↔
      Lists progress.reports methodId point := by
    rw [fielded]
    constructor
    · rintro (own | ⟨other, number, listed, named⟩)
      · exact absurd own foreign
      · obtain ⟨rfl, rfl⟩ := SavedFrame.pointFieldName_injective named
        exact listed
    · exact fun listed => Or.inr ⟨methodId, point, listed, rfl⟩
  split
  · rw [List.map_append, List.mem_append, listed]
    simp [markerField, syntheticField, SavedFrame.pointFieldName_ne_marker]
  · exact listed

/-- A point that is listed has a number below the count of its method. -/
theorem lists_iff {reports : List MethodReport} {methodId point : Int32} (natural : 0 ≤ point) :
    Lists reports methodId point ↔ ∃ report ∈ reports, report.methodId = methodId ∧
      point.toInt.toNat < report.pointCount := by
  rw [Int32.le_iff_toInt_le] at natural
  have size : Int32.size = 4294967296 := rfl
  constructor
  · rintro ⟨report, member, number, below, same, rfl⟩
    refine ⟨report, member, same, ?_⟩
    -- A number too large for the field is that of a smaller one, or of none.
    rw [Int32.toInt_ofNat'] at natural ⊢
    have zero : (0 : Int32).toInt = 0 := rfl
    rw [Int.bmod_def, size] at natural ⊢
    omega
  · rintro ⟨report, member, same, below⟩
    refine ⟨report, member, _, below, same, ?_⟩
    apply Int32.toInt_inj.mp
    rw [Int32.toInt_ofNat']
    have bounds := point.toInt_lt
    have zero : (0 : Int32).toInt = 0 := rfl
    rw [Int.bmod_def, size]
    omega

end ClassFile

namespace ClassTable

/-- In a class loaded as it was instrumented, a point is found if and only if the report lists a
method with so many points. -/
theorem pointExists_iff {classes : ClassTable} {hierarchy : Hierarchy} {settings : InstrumentSettings}
    {file : ClassFile} {report : ClassReport} {loaded : LoadedClass} (unmarked : file.Unmarked)
    (done : file.instrument hierarchy settings = .ok (loaded.file, report))
    (found : classes.find? file.name = some loaded) {methodId point : Int32} (natural : 0 ≤ point) :
    SavedFrame.pointExists classes.declaresField file.name methodId point =
      .ok (decide (∃ method ∈ report.methods, method.methodId = methodId ∧
        point.toInt.toNat < method.pointCount)) := by
  have declared : classes.declaresField file.name (SavedFrame.pointFieldName methodId point) =
      some (decide (∃ method ∈ report.methods, method.methodId = methodId ∧
        point.toInt.toNat < method.pointCount)) := by
    unfold declaresField
    rw [found, Option.map_some]
    refine congrArg some (Bool.eq_iff_iff.mpr ?_)
    rw [decide_eq_true_iff, ← ClassFile.lists_iff natural, ← ClassFile.instrument_fields unmarked done]
    simp [ClassFile.findField?, List.find?_isSome]
  unfold SavedFrame.pointExists
  rw [if_neg (Int32.not_lt.mpr natural), declared]

end ClassTable

end StackCoroutine
