import StackCoroutine.Proofs.Code.Encoding
import StackCoroutine.Class.Form

/-!
The byte form of classes. A class fits it if all its texts and lists are short enough for their
lengths to be written and its new arrays have element types that a descriptor denotes. What is
written for such a class is read back as that class; and every class that is read from any bytes,
also from bytes no class is written as, fits.
-/

namespace StackCoroutine

open Bytes (TextFits ListFits ofUInt32)

def Constant.Fits : Constant → Prop
  | .text value => TextFits value
  | _ => True

instance : DecidablePred Constant.Fits := fun value => by
  unfold Constant.Fits
  split <;> infer_instance

def Field.Fits (field : Field) : Prop :=
  TextFits field.name ∧ TextFits field.descriptor ∧ ∀ value ∈ field.value, value.Fits

instance : DecidablePred Field.Fits := fun _ => inferInstanceAs (Decidable (_ ∧ _ ∧ _))

def TryBlock.Fits (block : TryBlock) : Prop := ∀ text ∈ block.caught, TextFits text

instance : DecidablePred TryBlock.Fits := fun _ => inferInstanceAs (Decidable (∀ _ ∈ _, _))

def Method.Fits (method : Method) : Prop :=
  TextFits method.name ∧ TextFits method.descriptor ∧ ListFits Insn.Fits method.code ∧
    ListFits TryBlock.Fits method.tryBlocks

instance : DecidablePred Method.Fits := fun _ => inferInstanceAs (Decidable (_ ∧ _ ∧ _ ∧ _))

/-- Texts and lists of the class are shorter than `2 ^ 32`, and the element types of its new arrays
are ones that a descriptor denotes. -/
def ClassFile.Fits (file : ClassFile) : Prop :=
  TextFits file.name ∧ (∀ name ∈ file.superName, TextFits name) ∧
    ListFits TextFits file.interfaces ∧ ListFits Field.Fits file.fields ∧
    ListFits Method.Fits file.methods

instance : DecidablePred ClassFile.Fits := fun _ => inferInstanceAs (Decidable (_ ∧ _ ∧ _ ∧ _ ∧ _))

namespace Decoder

theorem constant_reads {value : Constant} (fits : value.Fits) :
    Reads constant value.encode value := by
  refine Reads.after_offset fun start => ?_
  cases value with
  | int value => exact (uint8_reads 0).bind ((int32_reads value).map _)
  | long value => exact (uint8_reads 1).bind ((int64_reads value).map _)
  | float value =>
      exact (uint8_reads 2).bind ((uint32_reads value.bits).map fun bits => Constant.float ⟨bits⟩)
  | double value =>
      exact (uint8_reads 3).bind ((uint64_reads value.bits).map fun bits => Constant.double ⟨bits⟩)
  | text value => exact (uint8_reads 4).bind ((text_reads fits).map _)

theorem constant_finds : Finds constant fun _ value => value.Fits := by
  refine Finds.after_offset fun start => uint8_spells.bind fun taken byte _ => ?_
  split
  · exact int32_spells.bind fun _ _ _ => Finds.pure trivial
  · exact int64_spells.bind fun _ _ _ => Finds.pure trivial
  · exact uint32_spells.bind fun _ _ _ => Finds.pure trivial
  · exact uint64_spells.bind fun _ _ _ => Finds.pure trivial
  · exact text_spells.bind fun _ _ spelled => Finds.pure spelled.1
  · exact Finds.throw _ _

theorem field_reads {field : Field} (fits : field.Fits) :
    Reads Decoder.field field.encode field := by
  obtain ⟨access, name, descriptor, value⟩ := field
  obtain ⟨nameFits, descriptorFits, valueFits⟩ := fits
  unfold Field.encode
  simp only [List.append_assoc]
  refine (uint16_reads access).bind ((text_reads nameFits).bind ((text_reads descriptorFits).bind
    (Reads.map ?_ _)))
  cases value with
  | none => exact (uint8_reads 0).last (Reads.pure none)
  | some value => exact (uint8_reads 1).bind ((constant_reads (valueFits value rfl)).map some)

theorem optionalConstant_finds :
    Finds optionalConstant fun _ found => ∀ value ∈ found, value.Fits := by
  refine uint8_spells.bind fun taken byte _ => ?_
  by_cases absent : byte = 0
  · rw [if_pos absent]
    exact Finds.pure (by simp)
  · rw [if_neg absent]
    refine constant_finds.bind fun more value fits => Finds.pure ?_
    rintro _ ⟨⟩
    exact fits

theorem field_finds : Finds Decoder.field fun _ field => field.Fits :=
  uint16_spells.bind fun _ _ _ => text_spells.bind fun _ _ name =>
    text_spells.bind fun _ _ descriptor => optionalConstant_finds.bind fun _ _ value =>
      Finds.pure ⟨name.1, descriptor.1, value⟩

theorem tryBlock_reads {block : TryBlock} (fits : block.Fits) :
    Reads tryBlock block.encode block := by
  unfold TryBlock.encode
  simp only [List.append_assoc]
  exact (label_reads block.start).bind ((label_reads block.stop).bind
    ((label_reads block.handler).bind ((optionalText_reads fits).map _)))

theorem tryBlock_finds : Finds tryBlock fun _ block => block.Fits :=
  label_spells.bind fun _ _ _ => label_spells.bind fun _ _ _ => label_spells.bind fun _ _ _ =>
    optionalText_finds.bind fun _ _ fits => Finds.pure fits

theorem method_reads {method : Method} (fits : method.Fits) :
    Reads Decoder.method method.encode method := by
  obtain ⟨name, descriptor, code, tryBlocks⟩ := fits
  unfold Method.encode
  simp only [List.append_assoc]
  exact (uint16_reads method.access).bind ((text_reads name).bind ((text_reads descriptor).bind
    ((uint16_reads method.maxStack).bind ((uint16_reads method.maxLocals).bind
      ((list_reads (fun _ => insn_reads) code).bind
        ((list_reads (fun _ => tryBlock_reads) tryBlocks).map _))))))

theorem method_finds : Finds Decoder.method fun _ method => method.Fits :=
  uint16_spells.bind fun _ _ _ => text_spells.bind fun _ _ name =>
    text_spells.bind fun _ _ descriptor => uint16_spells.bind fun _ _ _ =>
      uint16_spells.bind fun _ _ _ => (list_spells insn_spells).bind fun _ _ code =>
        (list_finds tryBlock_finds).bind fun _ _ tryBlocks =>
          Finds.pure ⟨name.1, descriptor.1, code.1, tryBlocks⟩

theorem classBody_reads {file : ClassFile} (fits : file.Fits) :
    Reads classBody file.encodeBody file := by
  obtain ⟨name, superName, interfaces, fields, methods⟩ := fits
  unfold ClassFile.encodeBody
  simp only [List.append_assoc]
  exact (uint16_reads file.access).bind ((text_reads name).bind ((optionalText_reads superName).bind
    ((list_reads (fun _ => text_reads) interfaces).bind
      ((list_reads (fun _ => field_reads) fields).bind
        ((list_reads (fun _ => method_reads) methods).map _)))))

theorem classBody_finds : Finds classBody fun _ file => file.Fits :=
  uint16_spells.bind fun _ _ _ => text_spells.bind fun _ _ name =>
    optionalText_finds.bind fun _ _ superName => (list_spells text_spells).bind fun _ _ interfaces =>
      (list_finds field_finds).bind fun _ _ fields => (list_finds method_finds).bind
        fun _ _ methods => Finds.pure ⟨name.1, superName, interfaces.1, fields, methods⟩

end Decoder

namespace ClassFile

variable {α β : Type}

/-- What decoding with the errors of classes answers and where it ends. -/
def outcome (action : ExceptT ClassError (StateM Cursor) α) (cursor : Cursor) :
    Except ClassError α × Cursor :=
  StateT.run (ExceptT.run action) cursor

theorem outcome_bind {action : ExceptT ClassError (StateM Cursor) α}
    {next : α → ExceptT ClassError (StateM Cursor) β} {cursor : Cursor} :
    outcome (action >>= next) cursor =
      match outcome action cursor with
      | (.ok value, middle) => outcome (next value) middle
      | (.error cause, middle) => (.error cause, middle) := by
  unfold outcome
  rw [ExceptT.run_bind, StateT.run_bind]
  rcases StateT.run (ExceptT.run action) cursor with ⟨_ | _, _⟩ <;> rfl

theorem outcome_bind_eq_ok {action : ExceptT ClassError (StateM Cursor) α}
    {next : α → ExceptT ClassError (StateM Cursor) β} {cursor after : Cursor} {last : β} :
    outcome (action >>= next) cursor = (.ok last, after) ↔
      ∃ value middle, outcome action cursor = (.ok value, middle) ∧
        outcome (next value) middle = (.ok last, after) := by
  rw [outcome_bind]
  rcases outcome action cursor with ⟨cause | value, middle⟩
  · simp
  · simp

theorem outcome_step_eq_ok {decoder : Decoder α} {cursor after : Cursor} {value : α} :
    outcome (step decoder) cursor = (.ok value, after) ↔
      decoder.run cursor = (.ok value, after) := by
  have mapped : outcome (step decoder) cursor =
      ((decoder.run cursor).1.mapError .decode, (decoder.run cursor).2) := rfl
  rw [mapped]
  rcases decoder.run cursor with ⟨_ | _, _⟩ <;> simp [Except.mapError]

theorem outcome_pure_eq_ok {first value : α} {cursor after : Cursor} :
    outcome (pure first) cursor = (.ok value, after) ↔ first = value ∧ cursor = after := by
  change (Except.ok first, cursor) = (Except.ok value, after) ↔ _
  simp

theorem outcome_throw {cause : ClassError} {cursor : Cursor} :
    outcome (throw cause : ExceptT ClassError (StateM Cursor) α) cursor = (.error cause, cursor) :=
  rfl

theorem outcome_guard_eq_ok {refused : Prop} [Decidable refused] {cause : ClassError}
    {skipped : β → ExceptT ClassError (StateM Cursor) α}
    {rest : ExceptT ClassError (StateM Cursor) α} {cursor after : Cursor} {value : α} :
    outcome (if refused then throw cause >>= skipped else rest) cursor = (.ok value, after) ↔
      ¬ refused ∧ outcome rest cursor = (.ok value, after) := by
  by_cases here : refused
  · rw [if_pos here, outcome_bind_eq_ok]
    simp [here, outcome_throw]
  · simp [here]

theorem outcome_check_eq_ok {refused : Prop} [Decidable refused] {cause : ClassError}
    {cursor after : Cursor} :
    outcome (if refused then throw cause else pure ()) cursor = (.ok (), after) ↔
      ¬ refused ∧ cursor = after := by
  by_cases here : refused
  · simp [here, outcome_throw]
  · simp [here, outcome_pure_eq_ok]

theorem run_magic_eq_ok {cursor after : Cursor} {found : List UInt8} :
    (Decoder.bytes 4).run cursor = (.ok found, after) ↔
      found.length = 4 ∧ cursor.rest = found ++ after.rest ∧ after.offset = cursor.offset + 4 := by
  rw [Decoder.run_eq_ok (fun value long => long ▸ Decoder.bytes_reads value)
    (Decoder.bytes_spells 4)]
  constructor
  · rintro ⟨long, front, moved⟩
    exact ⟨long, front, long ▸ moved⟩
  · rintro ⟨long, front, moved⟩
    exact ⟨long, front, long.symm ▸ moved⟩

theorem run_uint32_eq_ok {cursor after : Cursor} {number : UInt32} :
    Decoder.uint32.run cursor = (.ok number, after) ↔
      cursor.rest = ofUInt32 number ++ after.rest ∧ after.offset = cursor.offset + 4 := by
  rw [Decoder.run_eq_ok (fun value _ => Decoder.uint32_reads value) Decoder.uint32_spells]
  simp [ofUInt32]

/-- The header is accepted exactly if it has the magic bytes, the version and the checksum; the
flags may be any. -/
theorem decodeHeader_eq_ok {payload : List UInt8} {cursor after : Cursor} :
    outcome (decodeHeader payload) cursor = (.ok (), after) ↔
      ∃ flags, cursor.rest = magic ++ ofUInt32 version ++ ofUInt32 flags ++
        ofUInt32 (Checksum.ofBytes payload) ++ after.rest ∧
        after.offset = cursor.offset + headerLength := by
  unfold decodeHeader
  simp only [outcome_bind_eq_ok, outcome_guard_eq_ok, outcome_step_eq_ok, outcome_check_eq_ok,
    run_magic_eq_ok, run_uint32_eq_ok, Decidable.not_not]
  constructor
  · rintro ⟨_, _, ⟨-, atMagic, first⟩, rfl, _, _, ⟨atVersion, second⟩, rfl, flags, _,
      ⟨atFlags, third⟩, _, _, ⟨atSum, fourth⟩, rfl, rfl⟩
    refine ⟨flags, by simp [atMagic, atVersion, atFlags, atSum], ?_⟩
    rw [fourth, third, second, first, headerLength]
  · rintro ⟨flags, front, moved⟩
    obtain ⟨rest, offset⟩ := after
    simp only [List.append_assoc] at front
    exact ⟨magic, ⟨_, cursor.offset + 4⟩, ⟨rfl, front, rfl⟩, rfl, version, ⟨_, cursor.offset + 8⟩,
      ⟨rfl, rfl⟩, rfl, flags, ⟨_, cursor.offset + 12⟩, ⟨rfl, rfl⟩, _, ⟨rest, offset⟩,
      ⟨rfl, moved⟩, rfl, rfl⟩

/-- The bytes that are read as a class: a header with any flags, the form of the class under the
checksum, and whatever else the checksum covers. -/
theorem decode_eq_ok {bytes : List UInt8} {file : ClassFile} :
    decode bytes = .ok file ↔
      ∃ flags payload, bytes = magic ++ ofUInt32 version ++ ofUInt32 flags ++
        ofUInt32 (Checksum.ofBytes payload) ++ payload ∧
        ∃ after, Decoder.classBody.run ⟨payload, headerLength⟩ = (.ok file, after) := by
  have whole : decode bytes = .ok file ↔ ∃ after, outcome (do
      decodeHeader (bytes.drop headerLength)
      step Decoder.classBody) (.start bytes) = (.ok file, after) :=
    ⟨fun done => ⟨_, Prod.ext done rfl⟩, fun ⟨_, done⟩ => congrArg Prod.fst done⟩
  rw [whole]
  simp only [outcome_bind_eq_ok, outcome_step_eq_ok]
  constructor
  · rintro ⟨after, ⟨⟩, ⟨rest, offset⟩, accepted, read⟩
    obtain ⟨flags, front, moved⟩ := decodeHeader_eq_ok.mp accepted
    obtain rfl : offset = headerLength := moved.trans (Nat.zero_add _)
    have payload : bytes.drop headerLength = rest := by
      rw [show bytes = _ from front]
      rfl
    rw [payload] at front
    exact ⟨flags, rest, front, after, read⟩
  · rintro ⟨flags, payload, rfl, after, read⟩
    refine ⟨after, (), ⟨payload, headerLength⟩, decodeHeader_eq_ok.mpr ⟨flags, rfl, ?_⟩, read⟩
    exact (Nat.zero_add _).symm

/-- The written form of a class that fits is read back as the class. -/
theorem decode_encode {file : ClassFile} (fits : file.Fits) : decode file.encode = .ok file := by
  refine decode_eq_ok.mpr ⟨0, file.encodeBody, rfl, ⟨[], headerLength + file.encodeBody.length⟩, ?_⟩
  have read := Decoder.classBody_reads fits [] headerLength
  rwa [List.append_nil] at read

theorem ofBytes_encode (file : ClassFile) : ofBytes file.encode = decode file.encode := by
  exact if_pos rfl

/-- Whatever bytes a class is read from, it fits. -/
theorem fits_of_decode {bytes : List UInt8} {file : ClassFile} (read : decode bytes = .ok file) :
    file.Fits := by
  obtain ⟨flags, payload, -, after, done⟩ := decode_eq_ok.mp read
  obtain ⟨taken, -, -, fits⟩ := Decoder.classBody_finds _ _ _ done
  exact fits

/-- The byte form of classes loses nothing: a class that fits is read back from what is written for
it, and whatever is read from any bytes can be written and read back again. -/
theorem byte_form_round_trip :
    (∀ file : ClassFile, file.Fits →
      decode file.encode = .ok file ∧ ofBytes file.encode = .ok file) ∧
    ∀ (bytes : List UInt8) (file : ClassFile), decode bytes = .ok file →
      file.Fits ∧ decode file.encode = .ok file := by
  constructor
  · intro file fits
    exact ⟨decode_encode fits, (ofBytes_encode file).trans (decode_encode fits)⟩
  · intro bytes file read
    have fits := fits_of_decode read
    exact ⟨fits, decode_encode fits⟩

/-- A class with a constant, a table of targets, an array of arrays and a handler. -/
def collecting : ClassFile :=
  { empty "demo/Collecting" with
    interfaces := ["demo/Shape"]
    fields := [⟨Access.isStatic, "greeting", "Lstd/String;", some (.text "grüezi")⟩]
    methods := [
      { access := Access.isStatic, name := "run", descriptor := "(I)V", maxStack := 1, maxLocals := 2
        code := [.label ⟨0⟩, .load .int 0, .tableSwitch (-1) ⟨1⟩ [⟨1⟩, ⟨1⟩], .label ⟨1⟩,
          .intConst 3, .newArray (.array (.object "demo/Collecting")), .store .ref 1, .return none,
          .label ⟨2⟩, .throw]
        tryBlocks := [⟨⟨0⟩, ⟨2⟩, ⟨2⟩, some "std/Error"⟩, ⟨⟨0⟩, ⟨2⟩, ⟨2⟩, none⟩] }] }

theorem byte_form_round_trip_collecting :
    let foreign := magic ++ ofUInt32 version ++ ofUInt32 5 ++
      ofUInt32 (Checksum.ofBytes (collecting.encodeBody ++ [7])) ++ (collecting.encodeBody ++ [7])
    collecting.Fits ∧ decode collecting.encode = .ok collecting ∧
      ofBytes collecting.encode = .ok collecting ∧
      decode foreign = .ok collecting := by
  have fits : collecting.Fits := by decide
  obtain ⟨read, recognized⟩ := byte_form_round_trip.1 collecting fits
  -- the flags are no longer zero and a byte stands behind the class
  have foreign := decode_eq_ok.mpr ⟨5, _, rfl, _, Decoder.classBody_reads fits [7] headerLength⟩
  exact ⟨(byte_form_round_trip.2 _ _ foreign).1, read, recognized, foreign⟩

end ClassFile

end StackCoroutine
