import StackCoroutine.Proofs.Bytes.Shortage
import StackCoroutine.Proofs.Checksum
import StackCoroutine.Proofs.Class.Encoding

/-!
Damaged class files. A file that is cut short is never read as a class, even if the checksum of what
is left were right, because the class runs out of bytes. A file with one byte changed is refused by
the part of the header that covers the byte, and only the flags are covered by none.
-/

namespace StackCoroutine

/-- The cursor stands within the bytes. -/
def Cursor.Within (cursor : Cursor) (bytes : List UInt8) : Prop :=
  ∃ taken, bytes = taken ++ cursor.rest ∧ cursor.offset = taken.length

namespace ClassFile

open Bytes
open Decoder (Reads RunsOut)

variable {α β : Type}

/-- Reading a class from bytes, with the place where it ends. -/
def reading (bytes : List UInt8) : Except ClassError ClassFile × Cursor :=
  outcome (do
    decodeHeader (bytes.drop headerLength)
    step Decoder.classBody) (.start bytes)

theorem decode_eq_reading (bytes : List UInt8) : decode bytes = (reading bytes).1 := rfl

/-- The first bytes of a class file. -/
def header (flags sum : UInt32) : List UInt8 :=
  magic ++ ofUInt32 version ++ ofUInt32 flags ++ ofUInt32 sum

theorem encode_eq_header (file : ClassFile) :
    file.encode = header 0 (Checksum.ofBytes file.encodeBody) ++ file.encodeBody := rfl

theorem header_length (flags sum : UInt32) : (header flags sum).length = headerLength := rfl

theorem outcome_step {decoder : Decoder α} {cursor : Cursor} :
    outcome (step decoder) cursor =
      ((decoder.run cursor).1.mapError .decode, (decoder.run cursor).2) := rfl

/-- What stands before the cursor is read, and the rest goes on behind it. -/
theorem outcome_step_bind {decoder : Decoder α} {taken : List UInt8} {value : α}
    (reads : Reads decoder taken value) (next : α → ExceptT ClassError (StateM Cursor) β)
    (rest : List UInt8) (offset : Nat) :
    outcome (step decoder >>= next) ⟨taken ++ rest, offset⟩ =
      outcome (next value) ⟨rest, offset + taken.length⟩ := by
  rw [outcome_bind, outcome_step, reads]
  rfl

/-- The bytes run out, at a place within them. -/
def Cut (result : Except ClassError β × Cursor) (bytes : List UInt8) : Prop :=
  ∃ after, result = (.error (.decode (.unexpectedEnd after.offset)), after) ∧ after.Within bytes

theorem cut_of_runsOut {decoder : Decoder α} (front : List UInt8) {rest : List UInt8}
    (out : RunsOut decoder rest front.length) :
    Cut (outcome (step decoder) ⟨rest, front.length⟩) (front ++ rest) := by
  obtain ⟨taken, left, rfl, ran⟩ := out
  refine ⟨⟨left, front.length + taken.length⟩, ?_, front ++ taken, by simp, by simp⟩
  rw [outcome_step, ran]
  rfl

theorem Cut.bind {action : ExceptT ClassError (StateM Cursor) α} {cursor : Cursor}
    {bytes : List UInt8} (cut : Cut (outcome action cursor) bytes)
    (next : α → ExceptT ClassError (StateM Cursor) β) :
    Cut (outcome (action >>= next) cursor) bytes := by
  obtain ⟨after, ran, within⟩ := cut
  exact ⟨after, by rw [outcome_bind, ran], within⟩

/-- The header behind the version: flags and checksum. -/
def checkSum (payload : List UInt8) : ExceptT ClassError (StateM Cursor) Unit := do
  let _ ← step Decoder.uint32
  let stored ← step Decoder.uint32
  if stored ≠ Checksum.ofBytes payload then
    throw (.checksumMismatch stored (Checksum.ofBytes payload))

/-- The header behind the magic bytes. -/
def checkVersion (payload : List UInt8) : ExceptT ClassError (StateM Cursor) Unit := do
  let number ← step Decoder.uint32
  if number ≠ version then throw (.unsupportedVersion number) else checkSum payload

theorem decodeHeader_eq (payload : List UInt8) : decodeHeader payload = (do
    let found ← step (Decoder.bytes 4)
    if found ≠ magic then throw (.invalidMagic found) else checkVersion payload) := by
  unfold decodeHeader checkVersion
  refine bind_congr fun found => ?_
  split
  · rfl
  refine bind_congr fun number => ?_
  split <;> rfl

/-- Any four bytes are compared with the magic bytes. -/
theorem header_magic {found : List UInt8} (four : found.length = 4) (payload rest : List UInt8) :
    outcome (decodeHeader payload) (.start (found ++ rest)) =
      if found ≠ magic then (.error (.invalidMagic found), ⟨rest, 4⟩)
      else outcome (checkVersion payload) ⟨rest, 4⟩ := by
  have reads : Reads (Decoder.bytes 4) found found := four ▸ Decoder.bytes_reads found
  rw [decodeHeader_eq, Cursor.start, outcome_step_bind reads, four]
  split <;> rfl

theorem header_version (payload rest : List UInt8) (number : UInt32) :
    outcome (checkVersion payload) ⟨ofUInt32 number ++ rest, 4⟩ =
      if number ≠ version then (.error (.unsupportedVersion number), ⟨rest, 8⟩)
      else outcome (checkSum payload) ⟨rest, 8⟩ := by
  rw [checkVersion, outcome_step_bind (Decoder.uint32_reads number)]
  split <;> rfl

theorem header_sum (payload rest : List UInt8) (flags stored : UInt32) :
    outcome (checkSum payload) ⟨ofUInt32 flags ++ (ofUInt32 stored ++ rest), 8⟩ =
      if stored ≠ Checksum.ofBytes payload then
        (.error (.checksumMismatch stored (Checksum.ofBytes payload)), ⟨rest, headerLength⟩)
      else (.ok (), ⟨rest, headerLength⟩) := by
  rw [checkSum, outcome_step_bind (Decoder.uint32_reads flags),
    outcome_step_bind (Decoder.uint32_reads stored)]
  split <;> rfl

/-- Behind the header the class is read if the checksum is right. -/
theorem reading_header (flags stored : UInt32) (payload : List UInt8) :
    reading (header flags stored ++ payload) =
      if stored ≠ Checksum.ofBytes payload then
        (.error (.checksumMismatch stored (Checksum.ofBytes payload)), ⟨payload, headerLength⟩)
      else outcome (step Decoder.classBody) ⟨payload, headerLength⟩ := by
  have payload_eq : (header flags stored ++ payload).drop headerLength = payload := rfl
  have passed : outcome (decodeHeader payload) (.start (header flags stored ++ payload)) =
      outcome (checkSum payload) ⟨ofUInt32 flags ++ (ofUInt32 stored ++ payload), 8⟩ := by
    simp only [header, List.append_assoc]
    rw [header_magic rfl, if_neg (by simp), header_version, if_neg (by simp)]
  rw [reading, payload_eq, outcome_bind, passed, header_sum]
  by_cases right : stored = Checksum.ofBytes payload
  · simp only [ne_eq, right, not_true_eq_false, if_false]
  · simp only [ne_eq, right, not_false_eq_true, if_true]

theorem reading_magic {found : List UInt8} (four : found.length = 4) (other : found ≠ magic)
    (rest : List UInt8) : reading (found ++ rest) = (.error (.invalidMagic found), ⟨rest, 4⟩) := by
  rw [reading, outcome_bind, header_magic four, if_pos other]

theorem reading_version {number : UInt32} (other : number ≠ version) (rest : List UInt8) :
    reading (magic ++ (ofUInt32 number ++ rest)) =
      (.error (.unsupportedVersion number), ⟨rest, 8⟩) := by
  rw [reading, outcome_bind, header_magic rfl, if_neg (by simp), header_version, if_pos other]

/-! ### Files that are cut short -/

/-- A number that is cut short. -/
theorem uint32_runsOut (word : UInt32) (behind : List UInt8) {count : Nat} (short : count < 4)
    (offset : Nat) : RunsOut Decoder.uint32 ((ofUInt32 word ++ behind).take count) offset := by
  rw [List.take_append_of_le_length (Nat.le_of_lt short)]
  exact Decoder.uint32_steady.runsOut (Decoder.uint32_reads word) short offset

/-- A header that is cut short runs out in the part that is cut. -/
theorem header_cut (payload : List UInt8) (flags sum : UInt32) {count : Nat}
    (short : count < headerLength) :
    Cut (outcome (decodeHeader payload) (.start ((header flags sum).take count)))
      ((header flags sum).take count) := by
  have whole : header flags sum =
      magic ++ (ofUInt32 version ++ (ofUInt32 flags ++ (ofUInt32 sum ++ []))) := by
    simp only [header, List.append_assoc, List.append_nil]
  have behind : ∀ (front rest : List UInt8) (more : Nat), front.length = 4 →
      (front ++ rest).take (4 + more) = front ++ rest.take more :=
    fun _ _ _ four => four ▸ List.take_length_add_append ..
  -- The cut is in the magic bytes, the version, the flags or the checksum.
  have part : count < 4 ∨ (∃ more < 4, count = 4 + more) ∨ (∃ more < 4, count = 4 + (4 + more)) ∨
      ∃ more < 4, count = 4 + (4 + (4 + more)) := by
    have bound : count < 16 := short
    rcases Nat.lt_or_ge count 4 with here | there
    · exact Or.inl here
    rcases Nat.lt_or_ge count 8 with here | there'
    · exact Or.inr (Or.inl ⟨count - 4, by omega, by omega⟩)
    rcases Nat.lt_or_ge count 12 with here | there''
    · exact Or.inr (Or.inr (Or.inl ⟨count - 8, by omega, by omega⟩))
    · exact Or.inr (Or.inr (Or.inr ⟨count - 12, by omega, by omega⟩))
  rw [whole]
  rcases part with here | ⟨more, few, rfl⟩ | ⟨more, few, rfl⟩ | ⟨more, few, rfl⟩
  · rw [List.take_append_of_le_length (Nat.le_of_lt here), decodeHeader_eq]
    have out := (Decoder.bytes_steady 4).runsOut (Decoder.bytes_reads magic) here 0
    exact (cut_of_runsOut [] out).bind _
  · rw [behind magic _ _ rfl, header_magic rfl, if_neg (by simp), checkVersion]
    exact (cut_of_runsOut magic (uint32_runsOut _ _ few _)).bind _
  · rw [behind magic _ _ rfl, behind _ _ _ rfl, header_magic rfl, if_neg (by simp), header_version,
      if_neg (by simp), checkSum, ← List.append_assoc]
    exact (cut_of_runsOut (magic ++ ofUInt32 version) (uint32_runsOut _ _ few _)).bind _
  · rw [behind magic _ _ rfl, behind _ _ _ rfl, behind _ _ _ rfl, header_magic rfl,
      if_neg (by simp), header_version, if_neg (by simp), checkSum,
      outcome_step_bind (Decoder.uint32_reads flags), ← List.append_assoc, ← List.append_assoc]
    exact (cut_of_runsOut (magic ++ ofUInt32 version ++ ofUInt32 flags)
      (uint32_runsOut _ _ few _)).bind _

/-- A class that is cut short runs out of bytes, under whatever checksum. -/
theorem body_cut {file : ClassFile} (fits : file.Fits) (flags stored : UInt32) {count : Nat}
    (short : count < file.encodeBody.length) :
    Cut (outcome (step Decoder.classBody) ⟨file.encodeBody.take count, headerLength⟩)
      (header flags stored ++ file.encodeBody.take count) :=
  cut_of_runsOut (header flags stored)
    (Decoder.classBody_steady.runsOut (Decoder.classBody_reads fits) short _)

theorem Cut.place_le {result : Except ClassError β × Cursor} {bytes : List UInt8}
    (cut : Cut result bytes) :
    ∃ place ≤ bytes.length, result.1 = .error (.decode (.unexpectedEnd place)) := by
  obtain ⟨after, rfl, taken, rfl, moved⟩ := cut
  exact ⟨after.offset, by rw [List.length_append, moved]; omega, rfl⟩

/-- A class file that is cut short is refused wherever it is cut: it runs out of bytes, unless the
header is complete and its checksum differs. Reading stays within the bytes that are left. And the
class is refused also if the checksum before it is made to agree with what is left of it. -/
theorem truncated_refused (file : ClassFile) (fits : file.Fits) :
    (∀ count < file.encode.length, ∃ cause after,
      decode (file.encode.take count) = .error cause ∧
      reading (file.encode.take count) = (.error cause, after) ∧
      after.Within (file.encode.take count) ∧
      (cause = .decode (.unexpectedEnd after.offset) ∨
        headerLength ≤ count ∧ ∃ stored computed, stored ≠ computed ∧
          cause = .checksumMismatch stored computed)) ∧
    ∀ flags, ∀ count < file.encodeBody.length,
      let rest := file.encodeBody.take count
      ∃ place ≤ headerLength + count,
        decode (header flags (Checksum.ofBytes rest) ++ rest) =
          .error (.decode (.unexpectedEnd place)) := by
  constructor
  · intro count short
    rw [encode_eq_header] at short ⊢
    rw [List.length_append, header_length] at short
    have refused : ∀ {bytes : List UInt8}, Cut (reading bytes) bytes → ∃ cause after,
        decode bytes = .error cause ∧ reading bytes = (.error cause, after) ∧ after.Within bytes ∧
          (cause = .decode (.unexpectedEnd after.offset) ∨
            headerLength ≤ count ∧ ∃ stored computed, stored ≠ computed ∧
              cause = .checksumMismatch stored computed) := by
      rintro bytes ⟨after, ran, within⟩
      exact ⟨_, after, by rw [decode_eq_reading, ran], ran, within, Or.inl rfl⟩
    by_cases headed : count < headerLength
    · rw [List.take_append_of_le_length (Nat.le_of_lt headed)]
      exact refused ((header_cut _ _ _ headed).bind _)
    obtain ⟨more, rfl⟩ : ∃ more, count = headerLength + more := ⟨count - headerLength, by omega⟩
    have cut : (header 0 (Checksum.ofBytes file.encodeBody) ++ file.encodeBody).take
        (headerLength + more) =
          header 0 (Checksum.ofBytes file.encodeBody) ++ file.encodeBody.take more := by
      rw [← header_length 0 (Checksum.ofBytes file.encodeBody), List.take_length_add_append]
    rw [cut]
    have read := reading_header 0 (Checksum.ofBytes file.encodeBody) (file.encodeBody.take more)
    -- The checksum of what is left may happen to be the same; then the class itself runs out.
    by_cases right : Checksum.ofBytes file.encodeBody = Checksum.ofBytes (file.encodeBody.take more)
    · rw [if_neg (by simpa using right)] at read
      exact refused (read ▸ body_cut fits _ _ (by omega))
    · rw [if_pos right] at read
      exact ⟨_, _, by rw [decode_eq_reading, read], read, ⟨_, rfl, rfl⟩,
        Or.inr ⟨by omega, _, _, right, rfl⟩⟩
  · intro flags count short rest
    have read := reading_header flags (Checksum.ofBytes rest) rest
    rw [if_neg (by simp)] at read
    obtain ⟨place, inside, refused⟩ :=
      (body_cut fits flags (Checksum.ofBytes rest) short).place_le
    refine ⟨place, ?_, by rw [decode_eq_reading, read]; exact refused⟩
    rw [List.length_append, header_length, List.length_take] at inside
    omega

theorem truncated_refused_collecting :
    collecting.Fits ∧ 100 < collecting.encode.length ∧
    (∃ cause, decode (collecting.encode.take 100) = .error cause) ∧
    let rest := collecting.encodeBody.take 100
    ∃ place ≤ headerLength + 100, decode (header 5 (Checksum.ofBytes rest) ++ rest) =
      .error (.decode (.unexpectedEnd place)) := by
  have fits : collecting.Fits := by decide
  have short : 100 < collecting.encodeBody.length := by decide +kernel
  have short' : 100 < collecting.encode.length := by decide +kernel
  obtain ⟨cause, -, refused, -⟩ := (truncated_refused collecting fits).1 100 short'
  exact ⟨fits, short', ⟨cause, refused⟩, (truncated_refused collecting fits).2 5 100 short⟩

/-! ### Files with a changed byte -/

theorem exists_word {bytes : List UInt8} (four : bytes.length = 4) :
    ∃ number, bytes = ofUInt32 number :=
  ⟨_, (ofUInt32_littleEndian four).symm⟩

theorem set_ne_self {bytes : List UInt8} {place : Nat} (inside : place < bytes.length) {byte : UInt8}
    (changed : bytes[place] ≠ byte) : bytes.set place byte ≠ bytes := by
  intro same
  have there := congrArg (fun list => list[place]?) same
  simp only [List.getElem?_set_self inside, List.getElem?_eq_getElem inside, Option.some.injEq]
    at there
  exact changed there.symm

theorem set_four {front rest : List UInt8} (four : front.length = 4) (place : Nat) (byte : UInt8) :
    (front ++ rest).set place byte =
      if place < 4 then front.set place byte ++ rest else front ++ rest.set (place - 4) byte := by
  rw [List.set_append, four]

theorem encode_eq_parts (file : ClassFile) : file.encode =
    magic ++ (ofUInt32 version ++ (ofUInt32 0 ++
      (ofUInt32 (Checksum.ofBytes file.encodeBody) ++ file.encodeBody))) := by
  simp only [encode_eq_header, header, List.append_assoc]

section

variable {file : ClassFile} {place : Nat} {byte : UInt8}
  (different : file.encode.set place byte ≠ file.encode)

include different

theorem decode_set_magic (before : place < 4) :
    decode (file.encode.set place byte) = .error (.invalidMagic (magic.set place byte)) := by
  rw [encode_eq_parts, set_four rfl, if_pos before] at different ⊢
  have other : magic.set place byte ≠ magic := fun same => different (by rw [same])
  rw [decode_eq_reading, reading_magic (by simp [magic]) other]

theorem decode_set_version (behind : 4 ≤ place) (before : place < 8) :
    ∃ found, found ≠ version ∧
      decode (file.encode.set place byte) = .error (.unsupportedVersion found) := by
  obtain ⟨number, word⟩ := exists_word
    (show ((ofUInt32 version).set (place - 4) byte).length = 4 by simp [ofUInt32])
  rw [encode_eq_parts, set_four rfl, if_neg (by omega), set_four rfl, if_pos (by omega), word]
    at different ⊢
  have other : number ≠ version := fun same => different (by rw [same])
  exact ⟨number, other, by rw [decode_eq_reading, reading_version other]⟩

theorem decode_set_sum (behind : 12 ≤ place) (before : place < 16) :
    ∃ stored computed, stored ≠ computed ∧
      decode (file.encode.set place byte) = .error (.checksumMismatch stored computed) := by
  generalize sum_eq : Checksum.ofBytes file.encodeBody = sum
  obtain ⟨stored, word⟩ := exists_word
    (show ((ofUInt32 sum).set (place - 4 - 4 - 4) byte).length = 4 by simp [ofUInt32])
  have spelled : file.encode.set place byte = header 0 stored ++ file.encodeBody := by
    rw [encode_eq_parts, sum_eq, set_four rfl, if_neg (by omega), set_four rfl, if_neg (by omega),
      set_four rfl, if_neg (by omega), set_four rfl, if_pos (by omega), word]
    simp only [header, List.append_assoc]
  have other : stored ≠ Checksum.ofBytes file.encodeBody := by
    intro same
    exact different (by rw [spelled, same, encode_eq_header])
  exact ⟨_, _, other, by rw [spelled, decode_eq_reading, reading_header, if_pos other]⟩

/-- The checksum of the class notices a change in it. -/
theorem decode_set_body (behind : headerLength ≤ place) :
    ∃ stored computed, stored ≠ computed ∧
      decode (file.encode.set place byte) = .error (.checksumMismatch stored computed) := by
  generalize sum_eq : Checksum.ofBytes file.encodeBody = sum
  rw [encode_eq_header, sum_eq, List.set_append, header_length, if_neg (by omega)] at different ⊢
  have body : file.encodeBody.set (place - headerLength) byte ≠ file.encodeBody :=
    fun same => different (by rw [same])
  have other : sum ≠ Checksum.ofBytes (file.encodeBody.set (place - headerLength) byte) :=
    fun same => Checksum.ofBytes_set_ne body (sum_eq.trans same).symm
  exact ⟨_, _, other, by rw [decode_eq_reading, reading_header, if_pos other]⟩

end

/-- Other flags make no difference. -/
theorem decode_set_flags {file : ClassFile} {place : Nat} (behind : 8 ≤ place)
    (before : place < 12) (byte : UInt8) :
    decode (file.encode.set place byte) = decode file.encode := by
  generalize sum_eq : Checksum.ofBytes file.encodeBody = sum
  obtain ⟨flags, word⟩ := exists_word
    (show ((ofUInt32 0).set (place - 4 - 4) byte).length = 4 by simp [ofUInt32])
  have spelled : file.encode.set place byte = header flags sum ++ file.encodeBody := by
    rw [encode_eq_parts, sum_eq, set_four rfl, if_neg (by omega), set_four rfl, if_neg (by omega),
      set_four rfl, if_pos (by omega), word]
    simp only [header, List.append_assoc]
  rw [spelled, encode_eq_header, sum_eq, decode_eq_reading, decode_eq_reading, reading_header,
    reading_header]

/-- A class file with one byte changed is refused by the part of the header that covers the byte; the
flags are covered by none, and with other flags the same class is read. -/
theorem corrupted_refused (file : ClassFile) (read : decode file.encode = .ok file) (place : Nat)
    (inside : place < file.encode.length) (byte : UInt8) (changed : file.encode[place] ≠ byte) :
    let damaged := file.encode.set place byte
    (place < 4 → decode damaged = .error (.invalidMagic (magic.set place byte))) ∧
    (4 ≤ place → place < 8 →
      ∃ found, found ≠ version ∧ decode damaged = .error (.unsupportedVersion found)) ∧
    (8 ≤ place → place < 12 → decode damaged = .ok file) ∧
    (12 ≤ place → ∃ stored computed, stored ≠ computed ∧
      decode damaged = .error (.checksumMismatch stored computed)) := by
  intro damaged
  have different : damaged ≠ file.encode := set_ne_self inside changed
  refine ⟨decode_set_magic different, decode_set_version different, ?_, ?_⟩
  · intro behind before
    exact (decode_set_flags behind before byte).trans read
  · intro behind
    by_cases before : place < 16
    · exact decode_set_sum different behind before
    · exact decode_set_body different (Nat.le_of_not_lt before)

theorem corrupted_refused_collecting :
    decode collecting.encode = .ok collecting ∧
    decode (collecting.encode.set 0 0x58) = .error (.invalidMagic [0x58, 0x53, 0x55, 0x4D]) ∧
    (∃ found, found ≠ version ∧
      decode (collecting.encode.set 7 1) = .error (.unsupportedVersion found)) ∧
    decode (collecting.encode.set 9 1) = .ok collecting ∧
    ∃ stored computed, stored ≠ computed ∧
      decode (collecting.encode.set 40 0xFF) = .error (.checksumMismatch stored computed) := by
  have read : decode collecting.encode = .ok collecting := decode_encode (by decide)
  refine ⟨read, ?_, ?_, ?_, ?_⟩
  · have here := corrupted_refused collecting read 0 (by decide +kernel) 0x58 (by decide +kernel)
    exact here.1 (by omega)
  · have here := corrupted_refused collecting read 7 (by decide +kernel) 1 (by decide +kernel)
    exact here.2.1 (by omega) (by omega)
  · have here := corrupted_refused collecting read 9 (by decide +kernel) 1 (by decide +kernel)
    exact here.2.2.1 (by omega) (by omega)
  · have here := corrupted_refused collecting read 40 (by decide +kernel) 0xFF (by decide +kernel)
    exact here.2.2.2 (by omega)

end ClassFile

end StackCoroutine
