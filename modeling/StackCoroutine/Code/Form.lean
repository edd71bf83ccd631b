import StackCoroutine.Code.Insn
import StackCoroutine.Json.Record

/-!
The JSON form of types and instructions: the name of the instruction, alone or with its operands.
-/

namespace StackCoroutine

open Json (tagged)

namespace Kind

def formName : Kind → String
  | .int => "Int"
  | .long => "Long"
  | .float => "Float"
  | .double => "Double"
  | .ref => "Ref"

def toJson (kind : Kind) : Json := .string kind.formName

def ofJson? : Json → Option Kind := Json.choice? (all.map fun kind => (kind.formName, kind))

instance : JsonForm Kind := ⟨toJson, ofJson?⟩

end Kind

namespace ValueType

def toJson : ValueType → Json
  | .void => .string "Void"
  | .boolean => .string "Boolean"
  | .byte => .string "Byte"
  | .char => .string "Char"
  | .short => .string "Short"
  | .int => .string "Int"
  | .long => .string "Long"
  | .float => .string "Float"
  | .double => .string "Double"
  | .object name => tagged "Object" (.string name)
  | .array element => tagged "Array" element.toJson

def simple : List (String × ValueType) :=
  [("Void", .void), ("Boolean", .boolean), ("Byte", .byte), ("Char", .char), ("Short", .short),
    ("Int", .int), ("Long", .long), ("Float", .float), ("Double", .double)]

def ofJson? : Json → Option ValueType
  | .object [(name, held)] =>
      if name = "Array" then (ofJson? held).map .array
      else if name = "Object" then held.string?.map .object
      else if Json.holdsNothing (some held) then simple.lookup name else none
  | value => value.choice? simple

instance : JsonForm ValueType := ⟨toJson, ofJson?⟩

end ValueType

namespace Condition

def all : List Condition := [.eq, .ne, .lt, .ge, .gt, .le]

def formName : Condition → String
  | .eq => "Eq"
  | .ne => "Ne"
  | .lt => "Lt"
  | .ge => "Ge"
  | .gt => "Gt"
  | .le => "Le"

def toJson (condition : Condition) : Json := .string condition.formName

def ofJson? : Json → Option Condition :=
  Json.choice? (all.map fun condition => (condition.formName, condition))

instance : JsonForm Condition := ⟨toJson, ofJson?⟩

end Condition

namespace BinaryOp

def all : List BinaryOp := [.add, .sub, .mul, .div, .rem, .and, .or, .xor]

def toJson (op : BinaryOp) : Json := .string op.name

def ofJson? : Json → Option BinaryOp := Json.choice? (all.map fun op => (op.name, op))

end BinaryOp

namespace Dispatch

def all : List Dispatch := [.static, .virtual, .special, .interface]

def formName : Dispatch → String
  | .static => "Static"
  | .virtual => "Virtual"
  | .special => "Special"
  | .interface => "Interface"

def toJson (dispatch : Dispatch) : Json := .string dispatch.formName

def ofJson? : Json → Option Dispatch :=
  Json.choice? (all.map fun dispatch => (dispatch.formName, dispatch))

end Dispatch

namespace Label

def toJson (label : Label) : Json := .integer label.number.toNat

def ofJson? (value : Json) : Option Label := value.uint32?.map fun number => ⟨number⟩

end Label

namespace MethodRef

def toJson (method : MethodRef) : Json :=
  .object [("owner", .string method.owner), ("name", .string method.name),
    ("descriptor", .string method.descriptor)]

def ofJson? (value : Json) : Option MethodRef := do
  let record ← value.record? ["owner", "name", "descriptor"]
  return ⟨← record.required 0 Json.string?, ← record.required 1 Json.string?,
    ← record.required 2 Json.string?⟩

end MethodRef

namespace FieldRef

def toJson (field : FieldRef) : Json :=
  .object [("owner", .string field.owner), ("name", .string field.name),
    ("descriptor", .string field.descriptor)]

def ofJson? (value : Json) : Option FieldRef := do
  let record ← value.record? ["owner", "name", "descriptor"]
  return ⟨← record.required 0 Json.string?, ← record.required 1 Json.string?,
    ← record.required 2 Json.string?⟩

end FieldRef

namespace Insn

def toJson : Insn → Json
  | .label target => tagged "Label" target.toJson
  | .line number => tagged "Line" (.integer number.toNat)
  | .nop => .string "Nop"
  | .constNull => .string "ConstNull"
  | .intConst value => tagged "IConst" (.integer value.toInt)
  | .longConst value => tagged "LConst" (.integer value.toInt)
  | .floatConst value => tagged "FConst" (.single value)
  | .doubleConst value => tagged "DConst" (.double value)
  | .textConst value => tagged "SConst" (.string value)
  | .load kind slot => tagged "Load" (.array [kind.toJson, .integer slot.toNat])
  | .store kind slot => tagged "Store" (.array [kind.toJson, .integer slot.toNat])
  | .increment slot amount => tagged "IInc" (.array [.integer slot.toNat, .integer amount.toInt])
  | .pop => .string "Pop"
  | .dup => .string "Dup"
  | .dupBelow => .string "DupX1"
  | .swap => .string "Swap"
  | .binary kind op => tagged "Binary" (.array [kind.toJson, op.toJson])
  | .neg kind => tagged "Neg" kind.toJson
  | .convert source target => tagged "Convert" (.array [source.toJson, target.toJson])
  | .compare kind => tagged "Compare" kind.toJson
  | .jump target => tagged "Jump" target.toJson
  | .branch condition target => tagged "If" (.array [condition.toJson, target.toJson])
  | .branchCompare condition target => tagged "IfCmp" (.array [condition.toJson, target.toJson])
  | .branchNull target => tagged "IfNull" target.toJson
  | .branchNonNull target => tagged "IfNonNull" target.toJson
  | .branchSame target => tagged "IfRefEq" target.toJson
  | .branchDifferent target => tagged "IfRefNe" target.toJson
  | .tableSwitch low default targets =>
      tagged "TableSwitch" (.object [("low", .integer low.toInt), ("default", default.toJson),
        ("targets", .ofList Label.toJson targets)])
  | .new name => tagged "New" (.string name)
  | .getField field => tagged "GetField" field.toJson
  | .putField field => tagged "PutField" field.toJson
  | .getStatic field => tagged "GetStatic" field.toJson
  | .putStatic field => tagged "PutStatic" field.toJson
  | .checkCast name => tagged "CheckCast" (.string name)
  | .instanceOf name => tagged "InstanceOf" (.string name)
  | .newArray element => tagged "NewArray" element.toJson
  | .arrayLength => .string "ArrayLength"
  | .arrayLoad kind => tagged "ArrayLoad" kind.toJson
  | .arrayStore kind => tagged "ArrayStore" kind.toJson
  | .invoke dispatch method => tagged "Invoke" (.array [dispatch.toJson, method.toJson])
  | .invokeDynamic name descriptor =>
      tagged "InvokeDynamic" (.object [("name", .string name), ("descriptor", .string descriptor)])
  | .return kind => tagged "Return" (.ofOption Kind.toJson kind)
  | .throw => .string "Throw"
  | .monitorEnter => .string "MonitorEnter"
  | .monitorExit => .string "MonitorExit"

/-- Instructions without operands. -/
def bare : List (String × Insn) :=
  [("Nop", .nop), ("ConstNull", .constNull), ("Pop", .pop), ("Dup", .dup), ("DupX1", .dupBelow),
    ("Swap", .swap), ("ArrayLength", .arrayLength), ("Throw", .throw),
    ("MonitorEnter", .monitorEnter), ("MonitorExit", .monitorExit)]

/-- Two operands in an array. -/
def pair? (first : Json → Option α) (second : Json → Option β) (value : Json) : Option (α × β) := do
  match ← value.tuple? 2 with
  | [a, b] => return (← first a, ← second b)
  | _ => none

/-- The instruction of that name with these operands. -/
def ofOperands? (name : String) (held : Json) : Option Insn :=
  match name with
  | "Label" => (Label.ofJson? held).map .label
  | "Line" => held.uint32?.map .line
  | "IConst" => held.int32?.map .intConst
  | "LConst" => held.int64?.map .longConst
  | "FConst" => held.single?.map .floatConst
  | "DConst" => held.double?.map .doubleConst
  | "SConst" => held.string?.map .textConst
  | "Load" => (pair? Kind.ofJson? Json.uint16? held).map fun (kind, slot) => .load kind slot
  | "Store" => (pair? Kind.ofJson? Json.uint16? held).map fun (kind, slot) => .store kind slot
  | "IInc" => (pair? Json.uint16? Json.int32? held).map fun (slot, amount) => .increment slot amount
  | "Binary" => (pair? Kind.ofJson? BinaryOp.ofJson? held).map fun (kind, op) => .binary kind op
  | "Neg" => (Kind.ofJson? held).map .neg
  | "Convert" => (pair? Kind.ofJson? Kind.ofJson? held).map fun (source, target) =>
      .convert source target
  | "Compare" => (Kind.ofJson? held).map .compare
  | "Jump" => (Label.ofJson? held).map .jump
  | "If" => (pair? Condition.ofJson? Label.ofJson? held).map fun (condition, target) =>
      .branch condition target
  | "IfCmp" => (pair? Condition.ofJson? Label.ofJson? held).map fun (condition, target) =>
      .branchCompare condition target
  | "IfNull" => (Label.ofJson? held).map .branchNull
  | "IfNonNull" => (Label.ofJson? held).map .branchNonNull
  | "IfRefEq" => (Label.ofJson? held).map .branchSame
  | "IfRefNe" => (Label.ofJson? held).map .branchDifferent
  | "TableSwitch" => do
      let record ← held.record? ["low", "default", "targets"]
      return .tableSwitch (← record.required 0 Json.int32?) (← record.required 1 Label.ofJson?)
        (← record.required 2 (Json.items? Label.ofJson?))
  | "New" => held.string?.map .new
  | "GetField" => (FieldRef.ofJson? held).map .getField
  | "PutField" => (FieldRef.ofJson? held).map .putField
  | "GetStatic" => (FieldRef.ofJson? held).map .getStatic
  | "PutStatic" => (FieldRef.ofJson? held).map .putStatic
  | "CheckCast" => held.string?.map .checkCast
  | "InstanceOf" => held.string?.map .instanceOf
  | "NewArray" => (ValueType.ofJson? held).map .newArray
  | "ArrayLoad" => (Kind.ofJson? held).map .arrayLoad
  | "ArrayStore" => (Kind.ofJson? held).map .arrayStore
  | "Invoke" => (pair? Dispatch.ofJson? MethodRef.ofJson? held).map fun (dispatch, method) =>
      .invoke dispatch method
  | "InvokeDynamic" => do
      let record ← held.record? ["name", "descriptor"]
      return .invokeDynamic (← record.required 0 Json.string?) (← record.required 1 Json.string?)
  | "Return" => (held.optional? Kind.ofJson?).map .return
  | _ => none

def ofJson? (value : Json) : Option Insn := do
  let (name, held) ← value.alternative?
  match bare.lookup name with
  | some insn => if Json.holdsNothing held then some insn else none
  | none => ofOperands? name (← held)

instance : JsonForm Insn := ⟨toJson, ofJson?⟩

end Insn

namespace TryBlock

def toJson (block : TryBlock) : Json :=
  .object [("start", block.start.toJson), ("end", block.stop.toJson),
    ("handler", block.handler.toJson), ("catch_type", .ofOption Json.string block.caught)]

def ofJson? (value : Json) : Option TryBlock := do
  let record ← value.record? ["start", "end", "handler", "catch_type"]
  return ⟨← record.required 0 Label.ofJson?, ← record.required 1 Label.ofJson?,
    ← record.required 2 Label.ofJson?, ← record.optional 3 Json.string?⟩

instance : JsonForm TryBlock := ⟨toJson, ofJson?⟩

end TryBlock

end StackCoroutine
