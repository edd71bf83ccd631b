import StackCoroutine.Json.Basic

/-!
Reading values of known shape from JSON. A record is an object with named members, of which those
not asked for are passed over and those asked for may not repeat; or an array with the members in
order. A choice is the name of an alternative, alone or with what the alternative holds.
-/

namespace StackCoroutine

/-- The types whose values are written as JSON. -/
class JsonForm (α : Type) where
  toJson : α → Json
  ofJson? : Json → Option α

/-- What a record holds under each name asked for. -/
inductive Record where
  | keyed (values : List (Option Json))
  | listed (values : List Json)
  deriving Repr

namespace Json

/-- The member of that name; `none` outside if there are several. -/
def member? (name : String) (members : List (String × Json)) : Option (Option Json) :=
  match members.filter fun member => member.1 == name with
  | [] => some none
  | [(_, value)] => some (some value)
  | _ => none

/-- The record with the given member names. -/
def record? (names : List String) : Json → Option Record
  | .object members => (names.mapM fun name => member? name members).map .keyed
  | .array items => if items.length ≤ names.length then some (.listed items) else none
  | _ => none

/-- The name of an alternative, with what it holds if it is the single member of an object. -/
def alternative? (value : Json) : Option (String × Option Json) :=
  match value with
  | .string name => some (name, none)
  | .object [(name, held)] => some (name, some held)
  | _ => none

/-- An alternative that holds nothing. -/
def holdsNothing : Option Json → Bool
  | none => true
  | some .null => true
  | _ => false

/-- A choice among alternatives that hold nothing. -/
def choice? (choices : List (String × α)) (value : Json) : Option α := do
  let (name, held) ← value.alternative?
  if holdsNothing held then choices.lookup name else none

/-- Exactly this many items. -/
def tuple? (count : Nat) : Json → Option (List Json)
  | .array items => if items.length = count then some items else none
  | _ => none

def items? (decode : Json → Option α) : Json → Option (List α)
  | .array items => items.mapM decode
  | _ => none

def optional? (decode : Json → Option α) : Json → Option (Option α)
  | .null => some none
  | value => (decode value).map some

def string? : Json → Option String
  | .string value => some value
  | _ => none

def bool? : Json → Option Bool
  | .bool value => some value
  | _ => none

/-- A whole number from `low` up to and with `high`. -/
def within? (low high : Int) : Json → Option Int
  | .integer value => if low ≤ value ∧ value ≤ high then some value else none
  | _ => none

def uint16? (value : Json) : Option UInt16 :=
  (value.within? 0 0xFFFF).map fun n => UInt16.ofNat n.toNat

def uint32? (value : Json) : Option UInt32 :=
  (value.within? 0 0xFFFFFFFF).map fun n => UInt32.ofNat n.toNat

def nat? (value : Json) : Option Nat := (value.within? 0 0xFFFFFFFFFFFFFFFF).map Int.toNat

def int32? (value : Json) : Option Int32 :=
  (value.within? (-0x80000000) 0x7FFFFFFF).map Int32.ofInt

def int64? (value : Json) : Option Int64 :=
  (value.within? (-0x8000000000000000) 0x7FFFFFFFFFFFFFFF).map Int64.ofInt

/-- A double; a whole number is rounded to one. -/
def double? : Json → Option Binary64
  | .double value => some value
  | .single value => some value.widen
  | .integer value =>
      some (if 0 ≤ value then .ofUInt64 (.ofNat value.toNat) else .ofInt64 (.ofInt value))
  | _ => none

/-- A single; every number is rounded to one once. -/
def single? : Json → Option Binary32
  | .double value => some value.narrow
  | .single value => some value
  | .integer value =>
      some (if 0 ≤ value then .ofUInt64 (.ofNat value.toNat) else .ofInt64 (.ofInt value))
  | _ => none

end Json

namespace Record

/-- The value in the given place, if the record has one. -/
def value? : Record → Nat → Option Json
  | .keyed values, place => (values[place]?).bind id
  | .listed values, place => values[place]?

def required (record : Record) (place : Nat) (decode : Json → Option α) : Option α :=
  (record.value? place).bind decode

/-- An absent member counts as null; an array has no absent members. -/
def optional (record : Record) (place : Nat) (decode : Json → Option α) : Option (Option α) :=
  match record, record.value? place with
  | _, some value => value.optional? decode
  | .keyed _, none => some none
  | .listed _, none => none

def defaulted (record : Record) (place : Nat) (default : α) (decode : Json → Option α) : Option α :=
  match record.value? place with
  | some value => decode value
  | none => some default

end Record

end StackCoroutine
