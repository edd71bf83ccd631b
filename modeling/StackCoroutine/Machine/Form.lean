import StackCoroutine.Coroutine.Form
import StackCoroutine.Code.Form
import StackCoroutine.Machine.Vm

/-!
The JSON form of values, heap objects and machine states.
-/

namespace StackCoroutine

open Json (tagged)

namespace ObjectRef

def toJson (object : ObjectRef) : Json := .integer object.index.toNat

def ofJson? (value : Json) : Option ObjectRef := value.uint32?.map ObjectRef.mk

end ObjectRef

namespace Value

def toJson : Value → Json
  | .null => .string "Null"
  | .int value => tagged "Int" (.integer value.toInt)
  | .long value => tagged "Long" (.integer value.toInt)
  | .float value => tagged "Float" (.single value)
  | .double value => tagged "Double" (.double value)
  | .ref object => tagged "Ref" object.toJson
  | .context => .string "Context"

def ofJson? (value : Json) : Option Value := do
  let (name, held) ← value.alternative?
  match name with
  | "Null" => if Json.holdsNothing held then some .null else none
  | "Context" => if Json.holdsNothing held then some .context else none
  | "Int" => (← held).int32?.map .int
  | "Long" => (← held).int64?.map .long
  | "Float" => (← held).single?.map .float
  | "Double" => (← held).double?.map .double
  | "Ref" => (ObjectRef.ofJson? (← held)).map .ref
  | _ => none

instance : JsonForm Value := ⟨toJson, ofJson?⟩

end Value

namespace Slots

def toJson (slots : Slots) : Json := .object (slots.map fun (name, value) => (name, value.toJson))

/-- The last of several values of one name counts. -/
def ofJson? : Json → Option Slots
  | .object members =>
      members.foldlM (fun slots (name, held) => do
        return Slots.insert slots name (← Value.ofJson? held)) []
  | _ => none

end Slots

namespace HeapObject

def toJson : HeapObject → Json
  | .instance className fields =>
      tagged "Instance" (.object [("class", .string className), ("fields", Slots.toJson fields)])
  | .text content => tagged "String" (.string content)
  | .array element values =>
      tagged "Array" (.object [("element", element.toJson),
        ("values", .ofList Value.toJson values.toList)])
  | .savedFrame frame position =>
      tagged "MethodState" (.object [("state", frame.toJson),
        ("position", .ofOption Json.ofNat position)])
  | .lockState state => tagged "LockState" (state.toJson)

def ofJson? (value : Json) : Option HeapObject := do
  let (name, held) ← value.alternative?
  let held ← held
  match name with
  | "Instance" => do
      let record ← held.record? ["class", "fields"]
      return .instance (← record.required 0 Json.string?) (← record.required 1 Slots.ofJson?)
  | "String" => held.string?.map .text
  | "Array" => do
      let record ← held.record? ["element", "values"]
      let values ← record.required 1 (Json.items? Value.ofJson?)
      return .array (← record.required 0 ValueType.ofJson?) values.toArray
  | "MethodState" => do
      let record ← held.record? ["state", "position"]
      return .savedFrame (← record.required 0 SavedFrame.ofJson?)
        (← record.optional 1 Json.nat?)
  | "LockState" => (LockState.ofJson? held).map .lockState
  | _ => none

instance : JsonForm HeapObject := ⟨toJson, ofJson?⟩

end HeapObject

namespace Heap

def toJson (heap : Heap) : Json :=
  .object [("objects", .ofList HeapObject.toJson heap.objects.toList),
    ("interned", .object (heap.interned.map fun (text, object) => (text, object.toJson)))]

/-- The last of several objects of one text counts. -/
def internedOfJson? : Json → Option (List (String × ObjectRef))
  | .object members => do
      let entries ← members.mapM fun (text, held) => do
        return (text, ← ObjectRef.ofJson? held)
      return entries.foldr (fun entry kept =>
        if kept.any fun other => other.1 == entry.1 then kept else entry :: kept) []
  | _ => none

def ofJson? (value : Json) : Option Heap := do
  let record ← value.record? ["objects", "interned"]
  let objects ← record.required 0 (Json.items? HeapObject.ofJson?)
  return ⟨objects.toArray, ← record.required 1 internedOfJson?⟩

instance : JsonForm Heap := ⟨toJson, ofJson?⟩

end Heap

namespace MachineState

def toJson (state : MachineState) : Json :=
  .object [("heap", state.heap.toJson), ("statics", Slots.toJson state.statics)]

def ofJson? (value : Json) : Option MachineState := do
  let record ← value.record? ["heap", "statics"]
  return ⟨← record.required 0 Heap.ofJson?, ← record.required 1 Slots.ofJson?⟩

instance : JsonForm MachineState := ⟨toJson, ofJson?⟩

end MachineState

end StackCoroutine
