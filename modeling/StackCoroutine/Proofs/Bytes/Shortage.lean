import StackCoroutine.Class.Encoding
import StackCoroutine.Proofs.Bytes.Reading

/-!
Decoders on too few bytes. A decoder is steady if it never looks behind the bytes it takes: on the
front of a longer list it either runs out of bytes, or ends exactly as it does on the whole list. All
decoders of class files are steady, since they take bytes in one way only.
-/

namespace StackCoroutine.Decoder

variable {α β : Type}

/-- The decoder runs out of the bytes before it, and reports the place where it stands. -/
def RunsOut (decoder : Decoder α) (front : List UInt8) (offset : Nat) : Prop :=
  ∃ taken rest, front = taken ++ rest ∧ decoder.run ⟨front, offset⟩ =
    (.error (.unexpectedEnd (offset + taken.length)), ⟨rest, offset + taken.length⟩)

/-- The decoder ends after some of the bytes before it, and does so whatever follows them. -/
def Ends (decoder : Decoder α) (front : List UInt8) (offset : Nat)
    (result : Except DecodeError α) (rest : List UInt8) : Prop :=
  ∃ taken, front = taken ++ rest ∧
    ∀ more, decoder.run ⟨front ++ more, offset⟩ = (result, ⟨rest ++ more, offset + taken.length⟩)

/-- On whatever bytes, the decoder runs out of them or ends whatever follows. -/
def Steady (decoder : Decoder α) : Prop :=
  ∀ front offset, RunsOut decoder front offset ∨ ∃ result rest, Ends decoder front offset result rest

namespace Steady

theorem pure (value : α) : Steady (pure value) :=
  fun front _ => Or.inr ⟨.ok value, front, [], rfl, fun _ => rfl⟩

theorem throw (cause : DecodeError) : Steady (throw cause : Decoder α) :=
  fun front _ => Or.inr ⟨.error cause, front, [], rfl, fun _ => rfl⟩

theorem bind {decoder : Decoder α} {next : α → Decoder β} (here : Steady decoder)
    (later : ∀ value, Steady (next value)) : Steady (decoder >>= next) := by
  intro front offset
  obtain ⟨taken, rest, rfl, ran⟩ | ⟨result, rest, taken, rfl, ends⟩ := here front offset
  · exact Or.inl ⟨taken, rest, rfl, by rw [run_bind, ran]⟩
  cases result with
  | error cause =>
      exact Or.inr ⟨.error cause, rest, taken, rfl, fun more => by rw [run_bind, ends]⟩
  | ok value =>
      have ran : decoder.run ⟨taken ++ rest, offset⟩ = (.ok value, ⟨rest, offset + taken.length⟩) := by
        simpa using ends []
      have place : ∀ others : List UInt8,
          offset + taken.length + others.length = offset + (taken ++ others).length := by
        intro others
        rw [List.length_append, Nat.add_assoc]
      -- The second decoder stands before what the first one left, on the front and on the whole.
      obtain ⟨others, last, rfl, out⟩ | ⟨result, last, others, rfl, ends'⟩ :=
        later value rest (offset + taken.length)
      · refine Or.inl ⟨taken ++ others, last, (List.append_assoc ..).symm, ?_⟩
        rw [run_bind, ran]
        simp only [out, place]
      · refine Or.inr ⟨result, last, taken ++ others, (List.append_assoc ..).symm, fun more => ?_⟩
        rw [run_bind, ends]
        simp only [ends', place]

theorem map {decoder : Decoder α} (here : Steady decoder) (place : α → β) :
    Steady (do return place (← decoder)) :=
  here.bind fun _ => pure _

theorem after_offset {next : Nat → Decoder α} (later : ∀ start, Steady (next start)) :
    Steady (offset >>= next) :=
  fun front start => later start front start

end Steady

theorem bytes_steady (count : Nat) : Steady (bytes count) := by
  intro front offset
  have ran := run_bytes count ⟨front, offset⟩
  cases split : splitFront? count front with
  | none =>
      rw [split] at ran
      exact Or.inl ⟨[], front, rfl, ran⟩
  | some pair =>
      obtain ⟨taken, rest⟩ := pair
      obtain ⟨rfl, rfl⟩ := splitFront?_eq_some split
      refine Or.inr ⟨.ok taken, rest, taken, rfl, fun more => ?_⟩
      rw [run_bytes, List.append_assoc, splitFront?_append]

theorem uint8_steady : Steady uint8 := (bytes_steady 1).map _
theorem uint16_steady : Steady uint16 := (bytes_steady 2).map _
theorem uint32_steady : Steady uint32 := (bytes_steady 4).map _
theorem uint64_steady : Steady uint64 := (bytes_steady 8).map _
theorem int32_steady : Steady int32 := uint32_steady.map _
theorem int64_steady : Steady int64 := uint64_steady.map _

theorem text_steady : Steady text := by
  refine uint32_steady.bind fun count => Steady.after_offset fun start =>
    (bytes_steady _).bind fun found => ?_
  split
  · exact Steady.pure _
  · exact Steady.throw _

theorem optionalText_steady : Steady optionalText := by
  refine uint8_steady.bind fun byte => ?_
  split
  · exact Steady.pure _
  · exact text_steady.map _

theorem tagged_steady (operand : OperandTag) (choices : List α) :
    Steady (tagged operand choices) := by
  refine Steady.after_offset fun start => uint8_steady.bind fun byte => ?_
  split
  · exact Steady.pure _
  · exact Steady.throw _

theorem replicate_steady {decoder : Decoder α} (each : Steady decoder) (count : Nat) :
    Steady (replicate decoder count) := by
  induction count with
  | zero => exact Steady.pure []
  | succ count ih => exact each.bind fun item => ih.map _

theorem list_steady {decoder : Decoder α} (each : Steady decoder) : Steady (list decoder) :=
  uint32_steady.bind fun _ => replicate_steady each _

/-! ### Instructions -/

theorem opcode_steady : Steady opcode := by
  refine Steady.after_offset fun start => uint8_steady.bind fun byte => ?_
  split
  · exact Steady.pure _
  · exact Steady.throw _

theorem label_steady : Steady label := uint32_steady.map _
theorem kind_steady : Steady kind := tagged_steady _ _
theorem condition_steady : Steady condition := tagged_steady _ _
theorem operator_steady : Steady operator := tagged_steady _ _
theorem dispatch_steady : Steady dispatch := tagged_steady _ _

theorem methodRef_steady : Steady methodRef :=
  text_steady.bind fun _ => text_steady.bind fun _ => text_steady.map _

theorem fieldRef_steady : Steady fieldRef :=
  text_steady.bind fun _ => text_steady.bind fun _ => text_steady.map _

theorem returnKind_steady : Steady returnKind := by
  refine Steady.after_offset fun start => uint8_steady.bind fun byte => ?_
  split
  · exact Steady.pure _
  · split
    · exact Steady.pure _
    · exact Steady.throw _

theorem elementType_steady : Steady elementType := by
  refine Steady.after_offset fun start => text_steady.bind fun descriptor => ?_
  split
  · exact Steady.pure _
  · exact Steady.throw _

theorem operands_steady (code : Opcode) : Steady (operands code) := by
  cases code with
  | nop | constNull | pop | dup | dupBelow | swap | arrayLength | throw | monitorEnter
  | monitorExit => exact Steady.pure _
  | label | jump | branchNull | branchNonNull | branchSame | branchDifferent =>
      exact label_steady.map _
  | line | floatConst => exact uint32_steady.map _
  | intConst => exact int32_steady.map _
  | longConst => exact int64_steady.map _
  | doubleConst => exact uint64_steady.map _
  | textConst | new | checkCast | instanceOf => exact text_steady.map _
  | load | store => exact kind_steady.bind fun _ => uint16_steady.map _
  | increment => exact uint16_steady.bind fun _ => int32_steady.map _
  | binary => exact kind_steady.bind fun _ => operator_steady.map _
  | neg | compare | arrayLoad | arrayStore => exact kind_steady.map _
  | convert => exact kind_steady.bind fun _ => kind_steady.map _
  | branch | branchCompare => exact condition_steady.bind fun _ => label_steady.map _
  | tableSwitch =>
      exact int32_steady.bind fun _ => label_steady.bind fun _ => (list_steady label_steady).map _
  | getField | putField | getStatic | putStatic => exact fieldRef_steady.map _
  | newArray => exact elementType_steady.map _
  | invoke => exact dispatch_steady.bind fun _ => methodRef_steady.map _
  | invokeDynamic => exact text_steady.bind fun _ => text_steady.map _
  | «return» => exact returnKind_steady.map _

theorem insn_steady : Steady insn := opcode_steady.bind operands_steady

/-! ### Classes -/

theorem constant_steady : Steady constant := by
  refine Steady.after_offset fun start => uint8_steady.bind fun byte => ?_
  split
  · exact int32_steady.map _
  · exact int64_steady.map _
  · exact uint32_steady.map _
  · exact uint64_steady.map _
  · exact text_steady.map _
  · exact Steady.throw _

theorem optionalConstant_steady : Steady optionalConstant := by
  refine uint8_steady.bind fun byte => ?_
  split
  · exact Steady.pure _
  · exact constant_steady.map _

theorem field_steady : Steady Decoder.field :=
  uint16_steady.bind fun _ => text_steady.bind fun _ => text_steady.bind fun _ =>
    optionalConstant_steady.map _

theorem tryBlock_steady : Steady tryBlock :=
  label_steady.bind fun _ => label_steady.bind fun _ => label_steady.bind fun _ =>
    optionalText_steady.map _

theorem method_steady : Steady Decoder.method :=
  uint16_steady.bind fun _ => text_steady.bind fun _ => text_steady.bind fun _ =>
    uint16_steady.bind fun _ => uint16_steady.bind fun _ => (list_steady insn_steady).bind fun _ =>
      (list_steady tryBlock_steady).map _

theorem classBody_steady : Steady classBody :=
  uint16_steady.bind fun _ => text_steady.bind fun _ => optionalText_steady.bind fun _ =>
    (list_steady text_steady).bind fun _ => (list_steady field_steady).bind fun _ =>
      (list_steady method_steady).map _

/-- A form that a steady decoder reads to its end is nowhere cut short without notice: on every
proper front of it the decoder runs out of bytes. -/
theorem Steady.runsOut {decoder : Decoder α} (steady : Steady decoder) {taken : List UInt8}
    {value : α} (reads : Reads decoder taken value) {count : Nat} (short : count < taken.length)
    (offset : Nat) : RunsOut decoder (taken.take count) offset := by
  obtain out | ⟨result, rest, front, -, ends⟩ := steady (taken.take count) offset
  · exact out
  -- Otherwise it would have left the bytes that are missing here when it read the whole form.
  have whole := ends (taken.drop count)
  have read := reads [] offset
  rw [List.append_nil] at read
  rw [List.take_append_drop, read] at whole
  have left : [] = rest ++ taken.drop count := congrArg (fun pair => pair.2.rest) whole
  have missing := congrArg List.length left
  rw [List.length_append, List.length_drop, List.length_nil] at missing
  omega

end StackCoroutine.Decoder
