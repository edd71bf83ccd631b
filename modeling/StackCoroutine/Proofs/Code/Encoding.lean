import StackCoroutine.Proofs.Bytes.Reading
import StackCoroutine.Proofs.Descriptor
import StackCoroutine.Code.Encoding

/-!
The byte form of instructions is one to one. An instruction fits its byte form if its texts and its
table of targets are short enough for their lengths to be written and the element type of a new
array is one a descriptor denotes. Decoding takes the bytes of such an instruction, whatever follows
them; and whatever instruction it finds, it fits, and its bytes were those taken.
-/

namespace StackCoroutine

open Bytes (TextFits ListFits)

namespace ValueType

/-- Some descriptor denotes the type. -/
def Denoted (type : ValueType) : Prop := ∃ text, parse text = .ok type

/-- Descriptors of a type that is denoted at all are the type's own. -/
theorem denoted_iff {type : ValueType} : type.Denoted ↔ parse type.descriptor = .ok type :=
  ⟨fun ⟨_, parsed⟩ => parse_descriptor parsed ▸ parsed, fun parsed => ⟨_, parsed⟩⟩

instance (type : ValueType) : Decidable type.Denoted := decidable_of_iff _ denoted_iff.symm

end ValueType

def MethodRef.Fits (method : MethodRef) : Prop :=
  TextFits method.owner ∧ TextFits method.name ∧ TextFits method.descriptor

instance (method : MethodRef) : Decidable method.Fits := inferInstanceAs (Decidable (_ ∧ _))

def FieldRef.Fits (field : FieldRef) : Prop :=
  TextFits field.owner ∧ TextFits field.name ∧ TextFits field.descriptor

instance (field : FieldRef) : Decidable field.Fits := inferInstanceAs (Decidable (_ ∧ _))

namespace Insn

/-- The texts and the table of the instruction can be written, and its element type read back. -/
def Fits : Insn → Prop
  | .textConst text | .new text | .checkCast text | .instanceOf text => TextFits text
  | .tableSwitch _ _ targets => ListFits (fun _ => True) targets
  | .getField field | .putField field | .getStatic field | .putStatic field => field.Fits
  | .newArray element => element.Denoted ∧ TextFits element.descriptor
  | .invoke _ method => method.Fits
  | .invokeDynamic name descriptor => TextFits name ∧ TextFits descriptor
  | _ => True

instance : DecidablePred Fits := fun insn => by
  unfold Fits
  split <;> infer_instance

end Insn

theorem Opcode.byte_of_ofByte? {byte : UInt8} {code : Opcode}
    (selected : Opcode.ofByte? byte = some code) : code.byte = byte := by
  unfold Opcode.ofByte? at selected
  split at selected <;> cases selected <;> rfl

namespace Decoder

theorem opcode_reads (code : Opcode) : Reads opcode [code.byte] code := by
  refine Reads.after_offset fun start => (uint8_reads _).last ?_
  rw [Opcode.ofByte?_byte]
  exact Reads.pure code

theorem opcode_spells : Spells opcode (fun code => [code.byte]) fun _ => True := by
  refine Finds.after_offset fun start => uint8_spells.bind fun taken byte related => ?_
  cases selected : Opcode.ofByte? byte with
  | none => exact Finds.throw _ _
  | some code =>
      exact Finds.pure ⟨trivial, by simp [related.2, Opcode.byte_of_ofByte? selected]⟩

/-! ### Operands -/

theorem label_reads (target : Label) : Reads label target.encode target :=
  (uint32_reads target.number).map Label.mk

theorem label_spells : Spells label Label.encode fun _ => True :=
  uint32_spells.bind fun _ _ related => Finds.pure ⟨trivial, by simp [related.2, Label.encode]⟩

theorem kind_reads (choice : Kind) : Reads kind [choice.tag] choice :=
  tagged_reads .kind (by cases choice <;> rfl)

theorem kind_spells : Spells kind (fun choice => [choice.tag]) fun _ => True :=
  tagged_spells .kind (by decide) fun choice => by cases choice <;> rfl

theorem condition_reads (choice : Condition) : Reads condition [choice.tag] choice :=
  tagged_reads .condition (by cases choice <;> rfl)

theorem condition_spells : Spells condition (fun choice => [choice.tag]) fun _ => True :=
  tagged_spells .condition (by decide) fun choice => by cases choice <;> rfl

theorem operator_reads (choice : BinaryOp) : Reads operator [choice.tag] choice :=
  tagged_reads .operator (by cases choice <;> rfl)

theorem operator_spells : Spells operator (fun choice => [choice.tag]) fun _ => True :=
  tagged_spells .operator (by decide) fun choice => by cases choice <;> rfl

theorem dispatch_reads (choice : Dispatch) : Reads dispatch [choice.tag] choice :=
  tagged_reads .dispatch (by cases choice <;> rfl)

theorem dispatch_spells : Spells dispatch (fun choice => [choice.tag]) fun _ => True :=
  tagged_spells .dispatch (by decide) fun choice => by cases choice <;> rfl

theorem methodRef_reads {method : MethodRef} (fits : method.Fits) :
    Reads methodRef method.encode method := by
  obtain ⟨owner, name, descriptor⟩ := fits
  unfold MethodRef.encode
  rw [List.append_assoc]
  exact (text_reads owner).bind ((text_reads name).bind ((text_reads descriptor).map _))

theorem methodRef_spells : Spells methodRef MethodRef.encode MethodRef.Fits := by
  refine text_spells.bind fun first owner ownerSpelled => ?_
  refine text_spells.bind fun second name nameSpelled => ?_
  refine text_spells.bind fun third descriptor spelled => Finds.pure ?_
  exact ⟨⟨ownerSpelled.1, nameSpelled.1, spelled.1⟩,
    by simp [MethodRef.encode, ownerSpelled.2, nameSpelled.2, spelled.2]⟩

theorem fieldRef_reads {field : FieldRef} (fits : field.Fits) :
    Reads fieldRef field.encode field := by
  obtain ⟨owner, name, descriptor⟩ := fits
  unfold FieldRef.encode
  rw [List.append_assoc]
  exact (text_reads owner).bind ((text_reads name).bind ((text_reads descriptor).map _))

theorem fieldRef_spells : Spells fieldRef FieldRef.encode FieldRef.Fits := by
  refine text_spells.bind fun first owner ownerSpelled => ?_
  refine text_spells.bind fun second name nameSpelled => ?_
  refine text_spells.bind fun third descriptor spelled => Finds.pure ?_
  exact ⟨⟨ownerSpelled.1, nameSpelled.1, spelled.1⟩,
    by simp [FieldRef.encode, ownerSpelled.2, nameSpelled.2, spelled.2]⟩

/-- The byte of a return: that of a category, or the one for no value, which is no category's. -/
def returnTag (choice : Option Kind) : UInt8 := choice.elim Insn.voidTag Kind.tag

theorem returnKind_reads (choice : Option Kind) : Reads returnKind [returnTag choice] choice := by
  refine Reads.after_offset fun start => (uint8_reads _).last ?_
  rcases choice with _ | _ | _ | _ | _ | _ <;> exact Reads.pure _

theorem returnKind_spells :
    Spells returnKind (fun choice => [returnTag choice]) fun _ => True := by
  refine Finds.after_offset fun start => uint8_spells.bind fun taken byte related => ?_
  obtain ⟨-, rfl⟩ := related
  by_cases void : byte = Insn.voidTag
  · rw [if_pos void]
    exact Finds.pure ⟨trivial, by simp [void, returnTag]⟩
  · rw [if_neg void]
    cases selected : Kind.tagged[byte.toNat]? with
    | none => exact Finds.throw _ _
    | some choice =>
        have inside := (List.getElem?_eq_some_iff.mp selected).1
        have placed : Kind.tagged[choice.tag.toNat]? = some choice := by cases choice <;> rfl
        have same : byte.toNat = choice.tag.toNat :=
          (List.getElem?_inj inside (by decide)).mp (selected.trans placed.symm)
        exact Finds.pure ⟨trivial, by simp [returnTag, UInt8.toNat_inj.mp same]⟩

theorem elementType_reads {element : ValueType} (denoted : element.Denoted)
    (fits : TextFits element.descriptor) :
    Reads elementType (Bytes.ofText element.descriptor) element := by
  refine Reads.after_offset fun start => (text_reads fits).last ?_
  rw [ValueType.denoted_iff.mp denoted]
  exact Reads.pure element

theorem elementType_spells :
    Spells elementType (fun element => Bytes.ofText element.descriptor)
      fun element => element.Denoted ∧ TextFits element.descriptor := by
  refine Finds.after_offset fun start => text_spells.bind fun taken text related => ?_
  cases parsed : ValueType.parse text with
  | error cause => exact Finds.throw _ _
  | ok element =>
      have same := ValueType.parse_descriptor parsed
      exact Finds.pure ⟨⟨⟨text, parsed⟩, same ▸ related.1⟩, by simp [same, related.2]⟩

/-! ### Instructions -/

theorem operands_reads {insn : Insn} (fits : insn.Fits) :
    Reads (operands insn.opcode) insn.operands insn := by
  cases insn with
  | label target => exact (label_reads target).map _
  | line number => exact (uint32_reads number).map _
  | intConst value => exact (int32_reads value).map _
  | longConst value => exact (int64_reads value).map _
  | floatConst value => exact (uint32_reads value.bits).map fun bits => Insn.floatConst ⟨bits⟩
  | doubleConst value => exact (uint64_reads value.bits).map fun bits => Insn.doubleConst ⟨bits⟩
  | textConst value => exact (text_reads fits).map _
  | load kind slot => exact (kind_reads kind).bind ((uint16_reads slot).map _)
  | store kind slot => exact (kind_reads kind).bind ((uint16_reads slot).map _)
  | increment slot amount => exact (uint16_reads slot).bind ((int32_reads amount).map _)
  | binary kind op => exact (kind_reads kind).bind ((operator_reads op).map _)
  | neg kind => exact (kind_reads kind).map _
  | convert source target => exact (kind_reads source).bind ((kind_reads target).map _)
  | compare kind => exact (kind_reads kind).map _
  | jump target => exact (label_reads target).map _
  | branch condition target => exact (condition_reads condition).bind ((label_reads target).map _)
  | branchCompare condition target =>
      exact (condition_reads condition).bind ((label_reads target).map _)
  | branchNull target => exact (label_reads target).map _
  | branchNonNull target => exact (label_reads target).map _
  | branchSame target => exact (label_reads target).map _
  | branchDifferent target => exact (label_reads target).map _
  | tableSwitch low default targets =>
      have grouped : (Insn.tableSwitch low default targets).operands =
          Bytes.ofInt32 low ++ (default.encode ++ Bytes.ofList Label.encode targets) :=
        List.append_assoc _ _ _
      rw [grouped]
      exact (int32_reads low).bind ((label_reads default).bind
        ((list_reads (fun target _ => label_reads target) fits).map _))
  | new name => exact (text_reads fits).map _
  | getField field => exact (fieldRef_reads fits).map _
  | putField field => exact (fieldRef_reads fits).map _
  | getStatic field => exact (fieldRef_reads fits).map _
  | putStatic field => exact (fieldRef_reads fits).map _
  | checkCast name => exact (text_reads fits).map _
  | instanceOf name => exact (text_reads fits).map _
  | newArray element => exact (elementType_reads fits.1 fits.2).map _
  | arrayLoad kind => exact (kind_reads kind).map _
  | arrayStore kind => exact (kind_reads kind).map _
  | invoke dispatch method => exact (dispatch_reads dispatch).bind ((methodRef_reads fits).map _)
  | invokeDynamic name descriptor => exact (text_reads fits.1).bind ((text_reads fits.2).map _)
  | «return» kind =>
      cases kind with
      | none => exact (returnKind_reads none).map _
      | some kind => exact (returnKind_reads (some kind)).map _
  | nop | constNull | pop | dup | dupBelow | swap | arrayLength | throw | monitorEnter
  | monitorExit => exact Reads.pure _

/-- Decoding takes the bytes of an instruction that fits, whatever follows them. -/
theorem insn_reads {insn : Insn} (fits : insn.Fits) : Reads Decoder.insn insn.encode insn :=
  (opcode_reads insn.opcode).bind (operands_reads fits)

/-- The decoder finds instructions with the given operation code, from their operands. -/
def Builds (decoder : Decoder Insn) (code : Opcode) : Prop :=
  Finds decoder fun taken insn => insn.Fits ∧ insn.opcode = code ∧ taken = insn.operands

section Building

variable {α β : Type} {decoder : Decoder α} {encode : α → List UInt8} {fits : α → Prop}
variable {second : Decoder β} {encode' : β → List UInt8} {fits' : β → Prop} {code : Opcode}

theorem Builds.pure {insn : Insn} (fits : insn.Fits) (none : insn.operands = []) :
    Builds (pure insn) insn.opcode := Finds.pure ⟨fits, rfl, none.symm⟩

theorem Spells.builds {build : α → Insn} (found : Spells decoder encode fits)
    (built : ∀ value, fits value →
      (build value).Fits ∧ (build value).opcode = code ∧ (build value).operands = encode value) :
    Builds (do return build (← decoder)) code := by
  refine found.bind fun taken value related => Finds.pure ?_
  obtain ⟨fitting, rfl⟩ := related
  obtain ⟨whole, coded, spelled⟩ := built value fitting
  exact ⟨whole, coded, by rw [spelled, List.append_nil]⟩

theorem Spells.builds_pair {build : α → β → Insn} (first : Spells decoder encode fits)
    (later : Spells second encode' fits')
    (built : ∀ value other, fits value → fits' other →
      (build value other).Fits ∧ (build value other).opcode = code ∧
        (build value other).operands = encode value ++ encode' other) :
    Builds (do return build (← decoder) (← second)) code := by
  refine first.bind fun taken value related => later.bind fun more other related' => Finds.pure ?_
  obtain ⟨fitting, rfl⟩ := related
  obtain ⟨fitting', rfl⟩ := related'
  obtain ⟨whole, coded, spelled⟩ := built value other fitting fitting'
  exact ⟨whole, coded, by rw [spelled, List.append_nil]⟩

end Building

theorem tableSwitch_builds : Builds (operands .tableSwitch) .tableSwitch := by
  refine int32_spells.bind fun _ low lowSpelled => label_spells.bind fun _ default defaultSpelled =>
    (list_spells label_spells).bind fun _ targets spelled => Finds.pure ?_
  exact ⟨spelled.1, rfl, by simp [Insn.operands, lowSpelled.2, defaultSpelled.2, spelled.2]⟩

theorem operands_builds (code : Opcode) : Builds (operands code) code := by
  cases code with
  | label | jump | branchNull | branchNonNull | branchSame | branchDifferent =>
      exact label_spells.builds fun _ _ => ⟨trivial, rfl, rfl⟩
  | line => exact uint32_spells.builds fun _ _ => ⟨trivial, rfl, rfl⟩
  | intConst => exact int32_spells.builds fun _ _ => ⟨trivial, rfl, rfl⟩
  | longConst => exact int64_spells.builds fun _ _ => ⟨trivial, rfl, rfl⟩
  | floatConst =>
      exact uint32_spells.builds fun _ _ => ⟨trivial, rfl, rfl⟩
  | doubleConst =>
      exact uint64_spells.builds fun _ _ => ⟨trivial, rfl, rfl⟩
  | textConst | new | checkCast | instanceOf =>
      exact text_spells.builds fun _ fits => ⟨fits, rfl, rfl⟩
  | load | store =>
      exact kind_spells.builds_pair uint16_spells fun _ _ _ _ => ⟨trivial, rfl, rfl⟩
  | increment =>
      exact uint16_spells.builds_pair int32_spells fun _ _ _ _ => ⟨trivial, rfl, rfl⟩
  | binary => exact kind_spells.builds_pair operator_spells fun _ _ _ _ => ⟨trivial, rfl, rfl⟩
  | convert => exact kind_spells.builds_pair kind_spells fun _ _ _ _ => ⟨trivial, rfl, rfl⟩
  | neg | compare | arrayLoad | arrayStore =>
      exact kind_spells.builds fun _ _ => ⟨trivial, rfl, rfl⟩
  | branch | branchCompare =>
      exact condition_spells.builds_pair label_spells fun _ _ _ _ => ⟨trivial, rfl, rfl⟩
  | tableSwitch => exact tableSwitch_builds
  | getField | putField | getStatic | putStatic =>
      exact fieldRef_spells.builds fun _ fits => ⟨fits, rfl, rfl⟩
  | newArray => exact elementType_spells.builds fun _ fits => ⟨fits, rfl, rfl⟩
  | invoke =>
      exact dispatch_spells.builds_pair methodRef_spells fun _ _ _ fits => ⟨fits, rfl, rfl⟩
  | invokeDynamic =>
      exact text_spells.builds_pair text_spells fun _ _ fits fits' => ⟨⟨fits, fits'⟩, rfl, rfl⟩
  | «return» =>
      exact returnKind_spells.builds fun kind _ => ⟨trivial, rfl, by cases kind <;> rfl⟩
  | nop | pop | dup | dupBelow | swap | constNull | arrayLength | throw | monitorEnter
  | monitorExit => exact Builds.pure trivial rfl

/-- Whatever instruction is found, it fits its byte form, and that form was taken. -/
theorem insn_spells : Spells Decoder.insn Insn.encode Insn.Fits := by
  refine opcode_spells.bind fun taken code related => ?_
  refine (operands_builds code).weaken fun more insn built => ?_
  obtain ⟨fits, rfl, rfl⟩ := built
  exact ⟨fits, by rw [related.2, Insn.encode, List.singleton_append]⟩

end Decoder

end StackCoroutine
