import StackCoroutine.Json.Record
import StackCoroutine.Proofs.Json.Printing

/-!
What decoders of JSON make of printed values. `Conveys` says that the text of a value can be read
and that a decoder gives a certain answer for what it stands for; it has one rule for each way to
put values together, so that a form is shown to be decoded along its own structure. A number is
answered if it is finite, whence all that holds it is, and nothing else is answered in its place.
-/

namespace StackCoroutine

/-- The text of the number is read back as the number. -/
def Binary32.ReadsBack (number : Binary32) : Prop :=
  (Json.parse? (Json.leafText (.single number))).bind Json.single? = some number

instance (number : Binary32) : Decidable number.ReadsBack := inferInstanceAs (Decidable (_ = _))

def Binary64.ReadsBack (number : Binary64) : Prop :=
  (Json.parse? (Json.leafText (.double number))).bind Json.double? = some number

instance (number : Binary64) : Decidable number.ReadsBack := inferInstanceAs (Decidable (_ = _))

namespace Json

variable {α β γ : Type}

/-- At the given depth the text of the value can be read, and what it stands for is decoded with
the given answer. -/
structure Conveys (depth : Nat) (value : Json) (decode : Json → Option α) (answer : Option α) :
    Prop where
  legible : Legible depth value
  decoded : decode value.reread = answer

/-- Items are answered as long as each of them is. -/
theorem mapM_rereadItems {form : α → Json} {decode : Json → Option α} {passes : α → Bool}
    (items : List α)
    (decoded : ∀ item ∈ items, decode (form item).reread = Option.guard passes item) :
    (rereadItems (items.map form)).mapM decode =
      Option.guard (fun items => items.all passes) items := by
  induction items with
  | nil => rfl
  | cons item rest ih =>
      simp only [List.forall_mem_cons] at decoded
      rw [List.map_cons, rereadItems, List.mapM_cons, ih decoded.2, decoded.1]
      cases here : passes item with
      | false => simp [Option.guard, here]
      | true =>
          cases later : rest.all passes with
          | false => simp [Option.guard, here, later]
          | true => simp [Option.guard, here, later]

theorem map_guard {passes : α → Bool} {passes' : β → Bool} {place : α → β} {value : α}
    (same : passes' (place value) = passes value) :
    (Option.guard passes value).map place = Option.guard passes' (place value) := by
  cases here : passes value with
  | false => simp [Option.guard, same, here]
  | true => simp [Option.guard, same, here]

/-- What is done with an answer is done if there is one. -/
theorem guard_bind (passes : α → Bool) (value : α) (next : α → Option β) :
    (Option.guard passes value).bind next = if passes value then next value else none := by
  cases here : passes value with
  | false => simp [Option.guard, here]
  | true => simp [Option.guard, here]

namespace Conveys

variable {depth : Nat}

/-- What is made of a decoded value. -/
theorem map {value : Json} {decode : Json → Option α} {answer : Option α}
    (here : Conveys depth value decode answer) (place : α → β) :
    Conveys depth value (fun value => (decode value).map place) (answer.map place) :=
  ⟨here.legible, congrArg (Option.map place) here.decoded⟩

theorem text (text : String) : Conveys depth (.string text) string? (some text) :=
  ⟨.string, rfl⟩

/-- A choice that is written as its name. -/
theorem named {name : String} {decode : Json → Option α} {choice : α}
    (chosen : decode (.string name) = some choice) :
    Conveys depth (.string name) decode (some choice) := ⟨.string, chosen⟩

/-- A whole number between its bounds, as what it is made. -/
theorem within {low high value : Int} (place : Int → α) (least : low ≤ value) (most : value ≤ high)
    (range : InRange value) :
    Conveys depth (.integer value) (fun json => (json.within? low high).map place)
      (some (place value)) :=
  ⟨.integer range, congrArg (Option.map place) (if_pos ⟨least, most⟩)⟩

theorem uint16 (number : UInt16) : Conveys depth (.integer number.toNat) uint16? (some number) := by
  have bound := number.toNat_lt
  have found : Conveys depth (.integer number.toNat) uint16? _ :=
    within (fun n => UInt16.ofNat n.toNat) (by omega) (by omega) ⟨by omega, by omega⟩
  simpa using found

theorem uint32 (number : UInt32) : Conveys depth (.integer number.toNat) uint32? (some number) := by
  have bound := number.toNat_lt
  have found : Conveys depth (.integer number.toNat) uint32? _ :=
    within (fun n => UInt32.ofNat n.toNat) (by omega) (by omega) ⟨by omega, by omega⟩
  simpa using found

theorem int32 (number : Int32) : Conveys depth (.integer number.toInt) int32? (some number) := by
  have low := number.le_toInt
  have high := number.toInt_lt
  have found : Conveys depth (.integer number.toInt) int32? _ :=
    within Int32.ofInt (by omega) (by omega) ⟨by omega, by omega⟩
  simpa using found

theorem int64 (number : Int64) : Conveys depth (.integer number.toInt) int64? (some number) := by
  have low := number.le_toInt
  have high := number.toInt_lt
  have found : Conveys depth (.integer number.toInt) int64? _ :=
    within Int64.ofInt (by omega) (by omega) ⟨by omega, by omega⟩
  simpa using found

/-- A fraction that is not finite is printed as null, which no decoder of numbers answers. -/
theorem fraction {leaf : Json} {layout : Decimal.Layout} {width : BinaryWidth}
    {number : BinaryClass} {decode : Json → Option α} {value : α}
    (printed : leafText leaf = layout.write width number) (nulls : WritesNull layout)
    (stands : ∀ {read}, parse? (leafText leaf) = some read →
      Legible depth leaf ∧ leaf.reread = read)
    (readsBack : number.isFinite = true → (parse? (leafText leaf)).bind decode = some value)
    (refused : decode .null = none) :
    Conveys depth leaf decode (if number.isFinite then some value else none) := by
  by_cases finite : number.isFinite = true
  · obtain ⟨read, parsed, decoded⟩ := Option.bind_eq_some_iff.mp (readsBack finite)
    obtain ⟨legible, same⟩ := stands parsed
    exact ⟨legible, by rw [same, decoded, if_pos finite]⟩
  · have null : leafText leaf = "null" := printed.trans (nulls.write width (by simpa using finite))
    have parsed : parse? (leafText leaf) = some .null := by
      rw [null]
      rfl
    obtain ⟨legible, same⟩ := stands parsed
    exact ⟨legible, by rw [same, refused, if_neg finite]⟩

theorem single {number : Binary32}
    (readsBack : number.classify.isFinite = true → number.ReadsBack) :
    Conveys depth (.single number) single?
      (Option.guard (fun number => number.classify.isFinite) number) :=
  fraction rfl jsonSingle_writesNull
    (fun parsed => ⟨.single parsed, by rw [reread, parsed, Option.getD_some]⟩) readsBack rfl

theorem double {number : Binary64}
    (readsBack : number.classify.isFinite = true → number.ReadsBack) :
    Conveys depth (.double number) double?
      (Option.guard (fun number => number.classify.isFinite) number) :=
  fraction rfl jsonDouble_writesNull
    (fun parsed => ⟨.double parsed, by rw [reread, parsed, Option.getD_some]⟩) readsBack rfl

/-- The value an alternative holds, under its name. -/
theorem tagged {name : String} {held : Json} {decode : Json → Option α} {answer : Option α}
    {choose : Json → Option β} (here : Conveys (depth + 1) held decode answer) (place : α → β)
    (chosen : ∀ held, choose (Json.tagged name held) = (decode held).map place)
    (above : depth + 1 < depthLimit) :
    Conveys depth (Json.tagged name held) choose (answer.map place) := by
  refine ⟨.object above (by simpa using here.legible), ?_⟩
  exact (chosen held.reread).trans (congrArg (Option.map place) here.decoded)

/-- An alternative that is answered as what it holds is. -/
theorem tagged_guard {name : String} {held : Json} {decode : Json → Option α} {passes : α → Bool}
    {passes' : β → Bool} {value : α} {choose : Json → Option β}
    (here : Conveys (depth + 1) held decode (Option.guard passes value)) (place : α → β)
    (chosen : ∀ held, choose (Json.tagged name held) = (decode held).map place)
    (same : passes' (place value) = passes value) (above : depth + 1 < depthLimit) :
    Conveys depth (Json.tagged name held) choose (Option.guard passes' (place value)) :=
  map_guard same ▸ here.tagged place chosen above

/-- Items are answered if each of them is. -/
theorem list {form : α → Json} {decode : Json → Option α} {passes : α → Bool} {items : List α}
    (above : depth + 1 < depthLimit)
    (conveys : ∀ item ∈ items,
      Conveys (depth + 1) (form item) decode (Option.guard passes item)) :
    Conveys depth (.ofList form items) (items? decode)
      (Option.guard (fun items => items.all passes) items) := by
  refine ⟨.array above ?_, ?_⟩
  · simpa using fun item inside => (conveys item inside).legible
  · exact mapM_rereadItems items fun item inside => (conveys item inside).decoded

/-- Items that are always answered. -/
theorem items {form : α → Json} {decode : Json → Option α} {items : List α}
    (above : depth + 1 < depthLimit)
    (conveys : ∀ item ∈ items, Conveys (depth + 1) (form item) decode (some item)) :
    Conveys depth (.ofList form items) (items? decode) (some items) := by
  have always : Option.guard (fun items => items.all fun _ => true) items = some items := by
    simp [Option.guard]
  exact always ▸ list above conveys

/-- An optional value is answered, if present, as the value is. -/
theorem option {form : α → Json} {decode : Json → Option α} {passes : α → Bool} {value : Option α}
    (solid : ∀ value, (form value).reread ≠ .null)
    (conveys : ∀ item ∈ value, Conveys depth (form item) decode (Option.guard passes item)) :
    Conveys depth (.ofOption form value) (optional? decode)
      (Option.guard (fun value => value.all passes) value) := by
  cases value with
  | none => exact ⟨.null, rfl⟩
  | some item =>
      have here := conveys item rfl
      refine ⟨here.legible, ?_⟩
      have present : optional? decode (form item).reread = (decode (form item).reread).map some :=
        optional?.eq_2 _ _ (solid item)
      change optional? decode (form item).reread = _
      rw [present, here.decoded]
      exact map_guard rfl

/-- An optional value that is always answered. -/
theorem optional {form : α → Json} {decode : Json → Option α} {value : Option α}
    (solid : ∀ value, (form value).reread ≠ .null)
    (conveys : ∀ item ∈ value, Conveys depth (form item) decode (some item)) :
    Conveys depth (.ofOption form value) (optional? decode) (some value) := by
  have always : Option.guard (fun value => value.all fun _ => true) value = some value := by
    cases value <;> rfl
  exact always ▸ option solid conveys

end Conveys

end Json

end StackCoroutine
