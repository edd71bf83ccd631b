import StackCoroutine.Class.Form
import StackCoroutine.Proofs.Class.Answers
import StackCoroutine.Proofs.Code.Form

/-!
The JSON form of classes is faithful. The text of a class is read back as the class if its fractions
are finite, and refused if one of them is not. The two forms are told apart by their first byte.
-/

namespace StackCoroutine

open Json (Conveys depthLimit)

variable {depth : Nat}

namespace Constant

/-- The constant is no fraction, or a finite one. -/
def isFinite : Constant → Bool
  | .float value => value.classify.isFinite
  | .double value => value.classify.isFinite
  | _ => true

/-- The number is read back from its text if it is finite. -/
def ReadsBack : Constant → Prop
  | .float value => value.classify.isFinite = true → value.ReadsBack
  | .double value => value.classify.isFinite = true → value.ReadsBack
  | _ => True

instance : DecidablePred ReadsBack := fun value => by
  unfold ReadsBack
  split <;> infer_instance

theorem conveys (value : Constant) (readsBack : value.ReadsBack) (above : depth + 1 < depthLimit) :
    Conveys depth value.toJson ofJson? (Option.guard isFinite value) := by
  cases value with
  | int value => exact (Conveys.int32 value).tagged int (fun _ => rfl) above
  | long value => exact (Conveys.int64 value).tagged long (fun _ => rfl) above
  | float value => exact (Conveys.single readsBack).tagged_guard float (fun _ => rfl) rfl above
  | double value => exact (Conveys.double readsBack).tagged_guard double (fun _ => rfl) rfl above
  | text value => exact (Conveys.text value).tagged text (fun _ => rfl) above

theorem reread_ne_null (value : Constant) : value.toJson.reread ≠ .null := by
  cases value <;> nofun

end Constant

namespace Field

def isFinite (field : Field) : Bool := field.value.all Constant.isFinite

theorem conveys (field : Field) (readsBack : ∀ value ∈ field.value, value.ReadsBack)
    (room : depth + 2 < depthLimit) :
    Conveys depth field.toJson ofJson? (Option.guard isFinite field) := by
  have access : Conveys (depth + 1) _ Json.uint16? _ := .uint16 field.access
  have value : Conveys (depth + 1) (.ofOption Constant.toJson field.value)
      (Json.optional? Constant.ofJson?) _ :=
    .option Constant.reread_ne_null fun value present =>
      value.conveys (readsBack value present) (by omega)
  refine ⟨.object (by omega) ?_, ?_⟩
  · simp [access.legible, value.legible, Json.Legible.string]
  · have opened : ∀ access value : Json, ∀ name descriptor : String, ofJson? (.object [
        ("access", access), ("name", .string name), ("descriptor", .string descriptor),
        ("value", value)]) = (access.uint16?).bind fun access =>
          (value.optional? Constant.ofJson?).bind fun value =>
            some ⟨access, name, descriptor, value⟩ := fun _ _ _ _ => rfl
    refine (opened _ _ _ _).trans ?_
    rw [access.decoded, value.decoded, Option.bind_some, Json.guard_bind]
    rfl

end Field

namespace Method

def isFinite (method : Method) : Bool := method.code.all Insn.isFinite

theorem conveys (method : Method) (readsBack : ∀ insn ∈ method.code, insn.ReadsBack)
    (shallow : ∀ insn ∈ method.code, insn.Shallow (depth + 2)) (room : depth + 5 < depthLimit) :
    Conveys depth method.toJson ofJson? (Option.guard isFinite method) := by
  -- What the method holds stands one level deeper, its instructions and try blocks two.
  have access : Conveys (depth + 1) _ Json.uint16? _ := .uint16 method.access
  have stack : Conveys (depth + 1) _ Json.uint16? _ := .uint16 method.maxStack
  have locals : Conveys (depth + 1) _ Json.uint16? _ := .uint16 method.maxLocals
  have code : Conveys (depth + 1) (.ofList Insn.toJson method.code) (Json.items? Insn.ofJson?) _ :=
    .list (by omega) fun insn inside =>
      insn.conveys (readsBack insn inside) (by omega) (shallow insn inside)
  have tryBlocks : Conveys (depth + 1) (.ofList TryBlock.toJson method.tryBlocks)
      (Json.items? TryBlock.ofJson?) _ :=
    .items (by omega) fun block _ => block.conveys (by omega)
  refine ⟨.object (by omega) ?_, ?_⟩
  · simp [access.legible, stack.legible, locals.legible, code.legible, tryBlocks.legible,
      Json.Legible.string]
  · have opened : ∀ access stack locals code tryBlocks : Json, ∀ name descriptor : String,
        ofJson? (.object [("access", access), ("name", .string name),
          ("descriptor", .string descriptor), ("max_stack", stack), ("max_locals", locals),
          ("code", code), ("try_catch_blocks", tryBlocks)]) =
        (access.uint16?).bind fun access => (stack.uint16?).bind fun stack =>
          (locals.uint16?).bind fun locals => (code.items? Insn.ofJson?).bind fun code =>
            (tryBlocks.items? TryBlock.ofJson?).bind fun tryBlocks =>
              some ⟨access, name, descriptor, stack, locals, code, tryBlocks⟩ :=
      fun _ _ _ _ _ _ _ => rfl
    refine (opened _ _ _ _ _ _ _).trans ?_
    rw [access.decoded, stack.decoded, locals.decoded, code.decoded, tryBlocks.decoded]
    simp only [Option.bind_some, Json.guard_bind]
    rfl

end Method

namespace ClassFile

open Bytes

/-- No fraction among the constants of fields and instructions is infinite or no number. -/
def isFinite (file : ClassFile) : Bool :=
  file.fields.all Field.isFinite && file.methods.all Method.isFinite

/-- The finite fractions of the class are read back from their texts. -/
def ReadsBack (file : ClassFile) : Prop :=
  (∀ field ∈ file.fields, ∀ value ∈ field.value, value.ReadsBack) ∧
    ∀ method ∈ file.methods, ∀ insn ∈ method.code, insn.ReadsBack

instance : DecidablePred ReadsBack := fun _ => inferInstanceAs (Decidable (_ ∧ _))

/-- The element types of new arrays nest above the limit: an instruction stands in the class, its
methods, the method and its code. -/
def Shallow (file : ClassFile) : Prop :=
  ∀ method ∈ file.methods, ∀ insn ∈ method.code, insn.Shallow 4

instance : DecidablePred Shallow := fun _ => inferInstanceAs (Decidable (∀ _ ∈ _, _))

/-- The form of a class at the top of a text is decoded as the class if it is finite. -/
theorem conveys (file : ClassFile) (readsBack : file.ReadsBack) (shallow : file.Shallow) :
    Conveys 0 file.toJson ofJson? (Option.guard isFinite file) := by
  have access : Conveys 1 _ Json.uint16? _ := .uint16 file.access
  have superName : Conveys 1 (.ofOption Json.string file.superName) (Json.optional? Json.string?) _ :=
    .optional nofun fun name _ => .text name
  have interfaces : Conveys 1 (.ofList Json.string file.interfaces) (Json.items? Json.string?) _ :=
    .items (by decide) fun name _ => .text name
  have fields : Conveys 1 (.ofList Field.toJson file.fields) (Json.items? Field.ofJson?) _ :=
    .list (by decide) fun field inside => field.conveys (readsBack.1 field inside) (by decide)
  have methods : Conveys 1 (.ofList Method.toJson file.methods) (Json.items? Method.ofJson?) _ :=
    .list (by decide) fun method inside =>
      method.conveys (readsBack.2 method inside) (shallow method inside) (by decide)
  refine ⟨.object (by decide) ?_, ?_⟩
  · simp [access.legible, superName.legible, interfaces.legible, fields.legible, methods.legible,
      Json.Legible.string]
  · have opened : ∀ access superName interfaces fields methods : Json, ∀ name : String,
        ofJson? (.object [("access", access), ("name", .string name), ("super_name", superName),
          ("interfaces", interfaces), ("fields", fields), ("methods", methods)]) =
        (access.uint16?).bind fun access => (superName.optional? Json.string?).bind
          fun superName => (interfaces.items? Json.string?).bind fun interfaces =>
            (fields.items? Field.ofJson?).bind fun fields =>
              (methods.items? Method.ofJson?).bind fun methods =>
                some ⟨access, name, superName, interfaces, fields, methods⟩ :=
      fun _ _ _ _ _ _ => rfl
    refine (opened _ _ _ _ _ _).trans ?_
    rw [access.decoded, superName.decoded, interfaces.decoded, fields.decoded, methods.decoded]
    simp only [Option.bind_some, Json.guard_bind]
    cases first : file.fields.all Field.isFinite with
    | false => simp [Option.guard, isFinite, first]
    | true =>
        cases second : file.methods.all Method.isFinite with
        | false => simp [Option.guard, isFinite, second]
        | true => simp [Option.guard, isFinite, first, second]

end ClassFile

end StackCoroutine
