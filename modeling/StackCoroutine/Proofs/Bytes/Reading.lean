import StackCoroutine.Proofs.Bytes.Spelling
import Mathlib.Data.List.Nodup

/-!
What decoders take from the bytes before them. `Reads` says that a decoder takes given bytes,
whatever follows them, and answers a given value; `Finds` says what the bytes taken and the value
have to do with each other whenever a decoder succeeds, whatever bytes it was given. A form whose
decoder does the first for every encoded value and the second for encodings alone is one to one.
-/

namespace StackCoroutine

namespace Bytes

/-- A text whose length can be written before it. -/
def TextFits (text : String) : Prop := text.utf8ByteSize < 2 ^ 32

instance (text : String) : Decidable (TextFits text) := inferInstanceAs (Decidable (_ < _))

/-- A list whose length can be written before it, of elements that can be written. -/
def ListFits (fits : α → Prop) (items : List α) : Prop :=
  items.length < 2 ^ 32 ∧ ∀ item ∈ items, fits item

instance (fits : α → Prop) [DecidablePred fits] (items : List α) :
    Decidable (ListFits fits items) := inferInstanceAs (Decidable (_ ∧ _))

end Bytes

namespace Decoder

open Bytes (TextFits ListFits)

variable {α β : Type}

theorem run_pure (value : α) (cursor : Cursor) :
    (pure value : Decoder α).run cursor = (.ok value, cursor) := rfl

theorem run_throw (cause : DecodeError) (cursor : Cursor) :
    (throw cause : Decoder α).run cursor = (.error cause, cursor) := rfl

theorem run_bind (decoder : Decoder α) (next : α → Decoder β) (cursor : Cursor) :
    (decoder >>= next).run cursor =
      match decoder.run cursor with
      | (.ok value, after) => (next value).run after
      | (.error cause, after) => (.error cause, after) := by
  unfold run
  rw [ExceptT.run_bind, StateT.run_bind]
  change (match decoder.run cursor with | (_, _) => _) = _
  unfold run
  rcases StateT.run (ExceptT.run decoder) cursor with ⟨_ | _, _⟩ <;> rfl

theorem run_get_bind (next : Cursor → Decoder α) (cursor : Cursor) :
    (get >>= next).run cursor = (next cursor).run cursor := rfl

theorem run_offset_bind (next : Nat → Decoder α) (cursor : Cursor) :
    (offset >>= next).run cursor = (next cursor.offset).run cursor := rfl

theorem splitFront?_append (front back : List α) :
    splitFront? front.length (front ++ back) = some (front, back) := by
  induction front with
  | nil => rfl
  | cons item rest ih => simp [splitFront?, ih]

theorem splitFront?_eq_some {count : Nat} {items front back : List α}
    (split : splitFront? count items = some (front, back)) :
    items = front ++ back ∧ front.length = count := by
  induction count generalizing items front with
  | zero => simp_all [splitFront?]
  | succ count ih =>
      obtain _ | ⟨item, items⟩ := items
      · simp [splitFront?] at split
      unfold splitFront? at split
      cases later : splitFront? count items with
      | none => simp [later] at split
      | some pair =>
          obtain ⟨rest, after⟩ := pair
          simp only [later, Option.some.injEq, Prod.mk.injEq] at split
          obtain ⟨rfl, rfl⟩ := split
          obtain ⟨whole, count_eq⟩ := ih later
          exact ⟨by rw [whole, List.cons_append], by rw [List.length_cons, count_eq]⟩

theorem run_bytes (count : Nat) (cursor : Cursor) :
    (bytes count).run cursor =
      match splitFront? count cursor.rest with
      | none => (.error (.unexpectedEnd cursor.offset), cursor)
      | some (front, back) => (.ok front, ⟨back, cursor.offset + count⟩) := by
  unfold bytes
  rw [run_get_bind]
  cases splitFront? count cursor.rest <;> rfl

/-- The decoder takes exactly these bytes, whatever follows them, and answers the value. -/
def Reads (decoder : Decoder α) (taken : List UInt8) (value : α) : Prop :=
  ∀ rest offset,
    decoder.run ⟨taken ++ rest, offset⟩ = (.ok value, ⟨rest, offset + taken.length⟩)

/-- Whenever the decoder succeeds, the bytes it took and its answer stand in the relation. -/
def Finds (decoder : Decoder α) (holds : List UInt8 → α → Prop) : Prop :=
  ∀ cursor value after, decoder.run cursor = (.ok value, after) →
    ∃ taken, cursor.rest = taken ++ after.rest ∧
      after.offset = cursor.offset + taken.length ∧ holds taken value

/-- Whenever the decoder succeeds, it took the written form of its answer, which fits. -/
def Spells (decoder : Decoder α) (encode : α → List UInt8) (fits : α → Prop) : Prop :=
  Finds decoder fun taken value => fits value ∧ taken = encode value

namespace Reads

theorem pure (value : α) : Reads (pure value) [] value := fun _ _ => rfl

theorem bind {decoder : Decoder α} {next : α → Decoder β} {first second : List UInt8} {value : α}
    {last : β} (here : Reads decoder first value) (later : Reads (next value) second last) :
    Reads (decoder >>= next) (first ++ second) last := by
  intro rest offset
  rw [run_bind, List.append_assoc, here]
  simp only [later rest, List.length_append, Nat.add_assoc]

/-- The last part of a form; what is done with it takes no more bytes. -/
theorem last {decoder : Decoder α} {next : α → Decoder β} {taken : List UInt8} {value : α}
    {final : β} (here : Reads decoder taken value) (later : Reads (next value) [] final) :
    Reads (decoder >>= next) taken final := by
  simpa only [List.append_nil] using here.bind later

theorem map {decoder : Decoder α} {taken : List UInt8} {value : α}
    (here : Reads decoder taken value) (place : α → β) : Reads (do return place (← decoder)) taken (place value) :=
  here.last (Reads.pure _)

theorem after_offset {next : Nat → Decoder α} {taken : List UInt8} {value : α}
    (later : ∀ start, Reads (next start) taken value) : Reads (offset >>= next) taken value :=
  fun rest start => later start rest start

theorem runOn {decoder : Decoder α} {taken : List UInt8} {value : α}
    (here : Reads decoder taken value) : decoder.runOn taken = .ok value := by
  have whole := here [] 0
  rw [List.append_nil] at whole
  exact congrArg Prod.fst whole

end Reads

namespace Finds

theorem weaken {decoder : Decoder α} {holds weaker : List UInt8 → α → Prop}
    (found : Finds decoder holds)
    (implies : ∀ taken value, holds taken value → weaker taken value) : Finds decoder weaker := by
  intro cursor value after done
  obtain ⟨taken, spelled, moved, related⟩ := found cursor value after done
  exact ⟨taken, spelled, moved, implies taken value related⟩

theorem pure {value : α} {holds : List UInt8 → α → Prop} (related : holds [] value) :
    Finds (pure value) holds := by
  intro cursor found after done
  obtain ⟨rfl, rfl⟩ : value = found ∧ cursor = after := by simpa [run_pure] using done
  exact ⟨[], rfl, rfl, related⟩

theorem throw (cause : DecodeError) (holds : List UInt8 → α → Prop) :
    Finds (throw cause) holds := by
  intro cursor value after done
  simp [run_throw] at done

theorem bind {decoder : Decoder α} {next : α → Decoder β} {first : List UInt8 → α → Prop}
    {holds : List UInt8 → β → Prop} (here : Finds decoder first)
    (later : ∀ taken value, first taken value →
      Finds (next value) fun more last => holds (taken ++ more) last) :
    Finds (decoder >>= next) holds := by
  intro cursor last after done
  rw [run_bind] at done
  rcases ran : decoder.run cursor with ⟨cause | value, middle⟩
  · simp [ran] at done
  · rw [ran] at done
    obtain ⟨taken, spelled, moved, related⟩ := here cursor value middle ran
    obtain ⟨more, spelled', moved', related'⟩ := later taken value related middle last after done
    refine ⟨taken ++ more, ?_, ?_, related'⟩
    · rw [spelled, spelled', List.append_assoc]
    · rw [moved', moved, List.length_append, Nat.add_assoc]

theorem after_offset {next : Nat → Decoder α} {holds : List UInt8 → α → Prop}
    (later : ∀ start, Finds (next start) holds) : Finds (offset >>= next) holds := by
  intro cursor value after done
  rw [run_offset_bind] at done
  exact later cursor.offset cursor value after done

end Finds

/-- A decoder that reads every form and finds nothing else succeeds exactly where a form stands. -/
theorem run_eq_ok {decoder : Decoder α} {encode : α → List UInt8} {fits : α → Prop}
    (reads : ∀ value, fits value → Reads decoder (encode value) value)
    (spells : Spells decoder encode fits) {cursor after : Cursor} {value : α} :
    decoder.run cursor = (.ok value, after) ↔
      fits value ∧ cursor.rest = encode value ++ after.rest ∧
        after.offset = cursor.offset + (encode value).length := by
  constructor
  · intro done
    obtain ⟨taken, spelled, moved, fitting, rfl⟩ := spells cursor value after done
    exact ⟨fitting, spelled, moved⟩
  · rintro ⟨fitting, spelled, moved⟩
    obtain ⟨rest, offset⟩ := cursor
    obtain ⟨rest', offset'⟩ := after
    obtain rfl : rest = encode value ++ rest' := spelled
    obtain rfl : offset' = offset + (encode value).length := moved
    exact reads value fitting rest' offset

/-! ### Numbers -/

theorem bytes_reads (taken : List UInt8) : Reads (bytes taken.length) taken taken := by
  intro rest offset
  rw [run_bytes, splitFront?_append]

theorem bytes_spells (count : Nat) :
    Spells (bytes count) id fun taken => taken.length = count := by
  intro cursor value after done
  rw [run_bytes] at done
  cases split : splitFront? count cursor.rest with
  | none => simp [split] at done
  | some pair =>
      obtain ⟨front, back⟩ := pair
      obtain ⟨rfl, rfl⟩ : front = value ∧ ⟨back, cursor.offset + count⟩ = after := by
        simpa [split] using done
      obtain ⟨whole, long⟩ := splitFront?_eq_some split
      exact ⟨front, whole, by rw [long], long, rfl⟩

/-- A number takes the bytes it is written with. -/
theorem uint8_reads (value : UInt8) : Reads uint8 [value] value := by
  have read := (bytes_reads [value]).map fun taken => UInt8.ofNat (littleEndian taken)
  rwa [littleEndian, littleEndian, Nat.mul_zero, Nat.add_zero, UInt8.ofNat_toNat] at read

theorem uint8_spells : Spells uint8 (fun value => [value]) fun _ => True := by
  refine (bytes_spells 1).bind fun taken found related => Finds.pure ?_
  obtain ⟨one, rfl⟩ := related
  obtain ⟨byte, rfl⟩ := List.length_eq_one_iff.mp one
  exact ⟨trivial, by simp [littleEndian]⟩

theorem uint16_reads (value : UInt16) : Reads uint16 (Bytes.ofUInt16 value) value := by
  have read := (bytes_reads (Bytes.ofUInt16 value)).map fun taken =>
    UInt16.ofNat (littleEndian taken)
  rwa [Bytes.littleEndian_ofUInt16, UInt16.ofNat_toNat] at read

theorem uint16_spells : Spells uint16 Bytes.ofUInt16 fun _ => True := by
  refine (bytes_spells 2).bind fun taken found related => Finds.pure ?_
  obtain ⟨two, rfl⟩ := related
  exact ⟨trivial, by rw [Bytes.ofUInt16_littleEndian two, List.append_nil]⟩

theorem uint32_reads (value : UInt32) : Reads uint32 (Bytes.ofUInt32 value) value := by
  have read := (bytes_reads (Bytes.ofUInt32 value)).map fun taken =>
    UInt32.ofNat (littleEndian taken)
  rwa [Bytes.littleEndian_ofUInt32, UInt32.ofNat_toNat] at read

theorem uint32_spells : Spells uint32 Bytes.ofUInt32 fun _ => True := by
  refine (bytes_spells 4).bind fun taken found related => Finds.pure ?_
  obtain ⟨four, rfl⟩ := related
  exact ⟨trivial, by rw [Bytes.ofUInt32_littleEndian four, List.append_nil]⟩

theorem uint64_reads (value : UInt64) : Reads uint64 (Bytes.ofUInt64 value) value := by
  have read := (bytes_reads (Bytes.ofUInt64 value)).map fun taken =>
    UInt64.ofNat (littleEndian taken)
  rwa [Bytes.littleEndian_ofUInt64, UInt64.ofNat_toNat] at read

theorem uint64_spells : Spells uint64 Bytes.ofUInt64 fun _ => True := by
  refine (bytes_spells 8).bind fun taken found related => Finds.pure ?_
  obtain ⟨eight, rfl⟩ := related
  exact ⟨trivial, by rw [Bytes.ofUInt64_littleEndian eight, List.append_nil]⟩

theorem int32_reads (value : Int32) : Reads int32 (Bytes.ofInt32 value) value :=
  (uint32_reads value.toUInt32).map UInt32.toInt32

theorem int32_spells : Spells int32 Bytes.ofInt32 fun _ => True :=
  uint32_spells.bind fun _ _ related => Finds.pure ⟨trivial, by simp [Bytes.ofInt32, related.2]⟩

theorem int64_reads (value : Int64) : Reads int64 (Bytes.ofInt64 value) value :=
  (uint64_reads value.toUInt64).map UInt64.toInt64

theorem int64_spells : Spells int64 Bytes.ofInt64 fun _ => True :=
  uint64_spells.bind fun _ _ related => Finds.pure ⟨trivial, by simp [Bytes.ofInt64, related.2]⟩

/-! ### Texts, choices and lists -/

theorem text_reads {text : String} (fits : TextFits text) :
    Reads Decoder.text (Bytes.ofText text) text := by
  have sized : text.toUTF8.toList.length = text.utf8ByteSize := by
    simp [Bytes.toList_eq]
  refine (uint32_reads _).bind (Reads.after_offset fun start => ?_)
  rw [UInt32.toNat_ofNat_of_lt' (sized ▸ fits)]
  refine (bytes_reads _).last ?_
  rw [Bytes.utf8?_toUTF8]
  exact Reads.pure text

theorem text_spells : Spells text Bytes.ofText TextFits := by
  refine uint32_spells.bind fun taken count counted => Finds.after_offset fun start => ?_
  refine (bytes_spells _).bind fun found value related => ?_
  obtain ⟨long, rfl⟩ := related
  cases read : utf8? found with
  | none => exact Finds.throw _ _
  | some text =>
      have spelled := Bytes.toUTF8_utf8? read
      have sized : text.utf8ByteSize = count.toNat := by
        rw [← long, ← spelled]
        simp [Bytes.toList_eq]
      refine Finds.pure ⟨?_, ?_⟩
      · unfold TextFits
        rw [sized]
        exact count.toNat_lt
      · rw [counted.2, Bytes.ofText, Bytes.ofCount, spelled, long, UInt32.ofNat_toNat,
          List.append_nil]

theorem optionalText_reads {text : Option String} (fits : ∀ value ∈ text, TextFits value) :
    Reads optionalText (Bytes.ofOptionalText text) text := by
  cases text with
  | none => exact (uint8_reads 0).last (Reads.pure none)
  | some value => exact (uint8_reads 1).bind ((text_reads (fits value rfl)).map some)

theorem optionalText_finds :
    Finds optionalText fun _ text => ∀ value ∈ text, TextFits value := by
  refine uint8_spells.bind fun taken byte _ => ?_
  by_cases absent : byte = 0
  · rw [if_pos absent]
    exact Finds.pure (by simp)
  · rw [if_neg absent]
    refine text_spells.bind fun more value related => Finds.pure ?_
    rintro _ ⟨⟩
    exact related.1

/-- A byte that numbers the choices in their order selects the choice it is the byte of. -/
theorem tagged_reads {choices : List α} {tag : α → UInt8} {choice : α} (operand : OperandTag)
    (placed : choices[(tag choice).toNat]? = some choice) :
    Reads (tagged operand choices) [tag choice] choice := by
  refine Reads.after_offset fun start => (uint8_reads _).last ?_
  rw [placed]
  exact Reads.pure choice

theorem tagged_spells {choices : List α} {tag : α → UInt8} (operand : OperandTag)
    (distinct : choices.Nodup) (placed : ∀ choice, choices[(tag choice).toNat]? = some choice) :
    Spells (tagged operand choices) (fun choice => [tag choice]) fun _ => True := by
  refine Finds.after_offset fun start => uint8_spells.bind fun taken byte related => ?_
  cases selected : choices[byte.toNat]? with
  | none => exact Finds.throw _ _
  | some choice =>
      refine Finds.pure ⟨trivial, ?_⟩
      have inside := (List.getElem?_eq_some_iff.mp selected).1
      have same : byte.toNat = (tag choice).toNat :=
        (List.getElem?_inj inside distinct).mp (selected.trans (placed choice).symm)
      rw [related.2, UInt8.toNat_inj.mp same, List.append_nil]

theorem replicate_reads {decoder : Decoder α} {encode : α → List UInt8} {items : List α}
    (each : ∀ item ∈ items, Reads decoder (encode item) item) :
    Reads (replicate decoder items.length) (items.flatMap encode) items := by
  induction items with
  | nil => exact Reads.pure []
  | cons item rest ih =>
      have later := ih fun other member => each other (List.mem_cons_of_mem _ member)
      exact (each item List.mem_cons_self).bind (later.map (item :: ·))

theorem list_reads {decoder : Decoder α} {encode : α → List UInt8} {fits : α → Prop}
    {items : List α} (each : ∀ item, fits item → Reads decoder (encode item) item)
    (short : ListFits fits items) : Reads (list decoder) (Bytes.ofList encode items) items := by
  refine (uint32_reads _).bind ?_
  rw [UInt32.toNat_ofNat_of_lt' short.1]
  exact replicate_reads fun item member => each item (short.2 item member)

/-- Elements found one after another; the bytes of each stand in the relation to it. -/
theorem replicate_finds {decoder : Decoder α} {holds : List UInt8 → α → Prop}
    (each : Finds decoder holds) (count : Nat) :
    Finds (replicate decoder count) fun taken items => items.length = count ∧
      ∃ pieces, taken = pieces.flatten ∧ List.Forall₂ holds pieces items := by
  induction count with
  | zero => exact Finds.pure ⟨rfl, [], rfl, .nil⟩
  | succ count ih =>
      refine each.bind fun taken item related => ih.bind fun more rest relateds => Finds.pure ?_
      obtain ⟨long, pieces, rfl, matched⟩ := relateds
      exact ⟨by rw [List.length_cons, long], taken :: pieces, by simp, .cons related matched⟩

theorem list_finds {decoder : Decoder α} {fits : α → Prop}
    (each : Finds decoder fun _ item => fits item) :
    Finds (list decoder) fun _ items => ListFits fits items := by
  refine uint32_spells.bind fun taken count _ => ?_
  refine (replicate_finds each count.toNat).weaken fun more items found => ?_
  obtain ⟨long, pieces, -, matched⟩ := found
  refine ⟨long ▸ count.toNat_lt, ?_⟩
  clear long
  induction matched with
  | nil => simp
  | cons first _ ih => simpa using ⟨first, ih⟩

theorem list_spells {decoder : Decoder α} {encode : α → List UInt8} {fits : α → Prop}
    (each : Spells decoder encode fits) :
    Spells (list decoder) (Bytes.ofList encode) (ListFits fits) := by
  refine uint32_spells.bind fun taken count counted => ?_
  refine (replicate_finds each count.toNat).weaken fun more items found => ?_
  obtain ⟨long, pieces, rfl, matched⟩ := found
  have every : (∀ item ∈ items, fits item) ∧ pieces.flatten = items.flatMap encode := by
    clear long
    induction matched with
    | nil => simp
    | cons first _ ih => simp [first.1, first.2, ih.2]; exact ih.1
  refine ⟨⟨long ▸ count.toNat_lt, every.1⟩, ?_⟩
  rw [counted.2, every.2, Bytes.ofList, Bytes.ofCount, long, UInt32.ofNat_toNat]

end Decoder

end StackCoroutine
