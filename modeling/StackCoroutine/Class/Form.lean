import StackCoroutine.Class.Encoding
import StackCoroutine.Code.Form
import StackCoroutine.Json.Printer
import StackCoroutine.Json.Reader

/-!
The JSON form of classes, and reading a class file in either of its two forms.
-/

namespace StackCoroutine

open Json (tagged)

namespace Constant

def toJson : Constant → Json
  | .int value => tagged "Int" (.integer value.toInt)
  | .long value => tagged "Long" (.integer value.toInt)
  | .float value => tagged "Float" (.single value)
  | .double value => tagged "Double" (.double value)
  | .text value => tagged "String" (.string value)

def ofJson? (value : Json) : Option Constant := do
  let (name, held) ← value.alternative?
  let held ← held
  match name with
  | "Int" => held.int32?.map .int
  | "Long" => held.int64?.map .long
  | "Float" => held.single?.map .float
  | "Double" => held.double?.map .double
  | "String" => held.string?.map .text
  | _ => none

end Constant

namespace Field

def toJson (field : Field) : Json :=
  .object [("access", .integer field.access.toNat), ("name", .string field.name),
    ("descriptor", .string field.descriptor), ("value", .ofOption Constant.toJson field.value)]

def ofJson? (value : Json) : Option Field := do
  let record ← value.record? ["access", "name", "descriptor", "value"]
  return ⟨← record.required 0 Json.uint16?, ← record.required 1 Json.string?,
    ← record.required 2 Json.string?,
    ← record.defaulted 3 none (Json.optional? Constant.ofJson?)⟩

end Field

namespace Method

def toJson (method : Method) : Json :=
  .object [("access", .integer method.access.toNat), ("name", .string method.name),
    ("descriptor", .string method.descriptor), ("max_stack", .integer method.maxStack.toNat),
    ("max_locals", .integer method.maxLocals.toNat), ("code", .ofList Insn.toJson method.code),
    ("try_catch_blocks", .ofList TryBlock.toJson method.tryBlocks)]

def ofJson? (value : Json) : Option Method := do
  let record ← value.record? ["access", "name", "descriptor", "max_stack", "max_locals", "code",
    "try_catch_blocks"]
  return ⟨← record.required 0 Json.uint16?, ← record.required 1 Json.string?,
    ← record.required 2 Json.string?, ← record.required 3 Json.uint16?,
    ← record.required 4 Json.uint16?, ← record.defaulted 5 [] (Json.items? Insn.ofJson?),
    ← record.defaulted 6 [] (Json.items? TryBlock.ofJson?)⟩

end Method

namespace ClassFile

def toJson (file : ClassFile) : Json :=
  .object [("access", .integer file.access.toNat), ("name", .string file.name),
    ("super_name", .ofOption Json.string file.superName),
    ("interfaces", .ofList Json.string file.interfaces),
    ("fields", .ofList Field.toJson file.fields), ("methods", .ofList Method.toJson file.methods)]

def ofJson? (value : Json) : Option ClassFile := do
  let record ← value.record? ["access", "name", "super_name", "interfaces", "fields", "methods"]
  return ⟨← record.required 0 Json.uint16?, ← record.required 1 Json.string?,
    ← record.optional 2 Json.string?, ← record.defaulted 3 [] (Json.items? Json.string?),
    ← record.defaulted 4 [] (Json.items? Field.ofJson?),
    ← record.defaulted 5 [] (Json.items? Method.ofJson?)⟩

instance : JsonForm ClassFile := ⟨toJson, ofJson?⟩

/-- The class as JSON text. -/
def toJsonText (file : ClassFile) : String := file.toJson.pretty

def ofJsonText (text : String) : Except ClassError ClassFile :=
  match (Json.parse? text).bind ofJson? with
  | some file => .ok file
  | none => .error .json

/-- Reads the byte form after the magic bytes, else the JSON form. -/
def ofBytes (bytes : List UInt8) : Except ClassError ClassFile :=
  if magic.isPrefixOf bytes then decode bytes
  else match Decoder.utf8? bytes with
    | some text => ofJsonText text
    | none => .error (.decode (.invalidUtf8 0))

end ClassFile

end StackCoroutine
