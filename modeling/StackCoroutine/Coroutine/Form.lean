import StackCoroutine.Coroutine.Context
import StackCoroutine.Coroutine.LockState
import StackCoroutine.Json.Record

/-!
The JSON form of contexts, by which a suspended coroutine outlives its process. The form of the
values is that of their type.
-/

namespace StackCoroutine

namespace Mode

def all : List Mode := [.normal, .saving, .loading]

def toJson (mode : Mode) : Json := .string mode.name

def ofJson? : Json → Option Mode := Json.choice? (all.map fun mode => (mode.name, mode))

instance : JsonForm Mode := ⟨toJson, ofJson?⟩

end Mode

namespace LockState

def toJson [JsonForm M] (state : LockState M) : Json :=
  .object [("monitors", .ofList JsonForm.toJson state.monitors)]

def ofJson? [JsonForm M] (value : Json) : Option (LockState M) := do
  let record ← value.record? ["monitors"]
  return ⟨← record.required 0 (Json.items? JsonForm.ofJson?)⟩

end LockState

namespace SavedFrame

def toJson [JsonForm V] (frame : SavedFrame V) : Json :=
  .object [("class_name", .string frame.className), ("method_id", .integer frame.methodId.toInt),
    ("continuation_point", .integer frame.point.toInt), ("data", JsonForm.toJson frame.data),
    ("lock_state", .ofOption JsonForm.toJson frame.lockState)]

def ofJson? [JsonForm V] (value : Json) : Option (SavedFrame V) := do
  let record ← value.record? ["class_name", "method_id", "continuation_point", "data", "lock_state"]
  return ⟨← record.required 0 Json.string?, ← record.required 1 Json.int32?,
    ← record.required 2 Json.int32?, ← record.required 3 JsonForm.ofJson?,
    ← record.optional 4 JsonForm.ofJson?⟩

end SavedFrame

namespace Chain

def toJson [JsonForm V] (chain : Chain V) : Json :=
  .object [("states", .ofList SavedFrame.toJson chain.frames),
    ("cursor", .ofNat chain.cursor)]

def ofJson? [JsonForm V] (value : Json) : Option (Chain V) := do
  let record ← value.record? ["states", "cursor"]
  return ⟨← record.required 0 (Json.items? SavedFrame.ofJson?),
    ← record.required 1 Json.nat?⟩

instance [JsonForm V] : JsonForm (Chain V) := ⟨toJson, ofJson?⟩

end Chain

namespace Context

def argumentsToJson [JsonForm V] (arguments : List V) : Json :=
  .object [("arguments", .ofList JsonForm.toJson arguments)]

def argumentsOfJson? [JsonForm V] (value : Json) : Option (List V) := do
  let record ← value.record? ["arguments"]
  record.required 0 (Json.items? JsonForm.ofJson?)

def toJson [JsonForm V] (context : Context V) : Json :=
  .object [("mode", context.mode.toJson), ("chain", context.chain.toJson),
    ("argument_frames", .ofList argumentsToJson context.argumentFrames.reverse),
    ("context", .ofOption JsonForm.toJson context.payload)]

def ofJson? [JsonForm V] (value : Json) : Option (Context V) := do
  let record ← value.record? ["mode", "chain", "argument_frames", "context"]
  let frames ← record.required 2 (Json.items? argumentsOfJson?)
  return ⟨← record.required 0 Mode.ofJson?, ← record.required 1 Chain.ofJson?,
    frames.reverse, ← record.optional 3 JsonForm.ofJson?⟩

instance [JsonForm V] : JsonForm (Context V) := ⟨toJson, ofJson?⟩

end Context

end StackCoroutine
