import StackCoroutine.Bytes.Encoder
import StackCoroutine.ValueType
import StackCoroutine.Text.Hex

/-!
Reading bytes. A decoder works on a cursor, the bytes not read yet with the number of those before
them; it keeps what it has consumed also when it fails, and reports where it failed.
-/

namespace StackCoroutine

/-- What an operand byte selects. -/
inductive OperandTag where
  | kind
  | condition
  | operator
  | dispatch
  | returnKind
  | constant
  deriving DecidableEq, Repr

def OperandTag.text : OperandTag → String
  | .kind => "kind"
  | .condition => "condition"
  | .operator => "operator"
  | .dispatch => "invoke kind"
  | .returnKind => "return kind"
  | .constant => "constant"

inductive DecodeError where
  | unexpectedEnd (offset : Nat)
  | invalidUtf8 (offset : Nat)
  | invalidOpcode (byte : UInt8) (offset : Nat)
  | invalidTag (operand : OperandTag) (byte : UInt8) (offset : Nat)
  | invalidDescriptor (offset : Nat) (cause : DescriptorError)
  deriving DecidableEq, Repr

def DecodeError.message : DecodeError → String
  | .unexpectedEnd offset => s!"Unexpected end of bytecode at offset {offset}"
  | .invalidUtf8 offset => s!"Invalid UTF-8 string at offset {offset}"
  | .invalidOpcode byte offset =>
      s!"Invalid opcode " ++ Hex.marked byte.toNat ++ s!" at offset {offset}"
  | .invalidTag operand byte offset =>
      "Invalid " ++ operand.text ++ " tag " ++ Hex.marked byte.toNat ++ s!" at offset {offset}"
  | .invalidDescriptor offset cause =>
      s!"Invalid descriptor at offset {offset}: " ++ cause.message

structure Cursor where
  rest : List UInt8
  offset : Nat
  deriving DecidableEq, Repr

def Cursor.start (bytes : List UInt8) : Cursor := ⟨bytes, 0⟩

abbrev Decoder := ExceptT DecodeError (StateM Cursor)

namespace Decoder

def run (decoder : Decoder α) (cursor : Cursor) : Except DecodeError α × Cursor :=
  StateT.run (ExceptT.run decoder) cursor

/-- The result on a whole list of bytes, whatever remains after it. -/
def runOn (decoder : Decoder α) (bytes : List UInt8) : Except DecodeError α :=
  (decoder.run (.start bytes)).1

def offset : Decoder Nat := return (← get).offset

/-- The first `count` elements and the others, if there are that many. -/
def splitFront? : Nat → List α → Option (List α × List α)
  | 0, items => some ([], items)
  | _ + 1, [] => none
  | count + 1, item :: items =>
      match splitFront? count items with
      | none => none
      | some (front, back) => some (item :: front, back)

def bytes (count : Nat) : Decoder (List UInt8) := do
  let cursor ← get
  match splitFront? count cursor.rest with
  | none => throw (.unexpectedEnd cursor.offset)
  | some (front, back) =>
      set (⟨back, cursor.offset + count⟩ : Cursor)
      return front

/-- The number whose bytes these are, lowest first. -/
def littleEndian : List UInt8 → Nat
  | [] => 0
  | byte :: rest => byte.toNat + 256 * littleEndian rest

def uint8 : Decoder UInt8 := return UInt8.ofNat (littleEndian (← bytes 1))
def uint16 : Decoder UInt16 := return UInt16.ofNat (littleEndian (← bytes 2))
def uint32 : Decoder UInt32 := return UInt32.ofNat (littleEndian (← bytes 4))
def uint64 : Decoder UInt64 := return UInt64.ofNat (littleEndian (← bytes 8))
def int32 : Decoder Int32 := return (← uint32).toInt32
def int64 : Decoder Int64 := return (← uint64).toInt64

/-- The text a list of bytes is the UTF-8 form of. -/
def utf8? (bytes : List UInt8) : Option String := String.fromUTF8? bytes.toByteArray

def text : Decoder String := do
  let count ← uint32
  let start ← offset
  match utf8? (← bytes count.toNat) with
  | some text => return text
  | none => throw (.invalidUtf8 start)

/-- Every presence byte but zero announces a text. -/
def optionalText : Decoder (Option String) := do
  if (← uint8) = 0 then return none else return some (← text)

/-- An operand byte that selects one of the given values, counted from zero. -/
def tagged (operand : OperandTag) (choices : List α) : Decoder α := do
  let start ← offset
  let byte ← uint8
  match choices[byte.toNat]? with
  | some choice => return choice
  | none => throw (.invalidTag operand byte start)

def replicate (decoder : Decoder α) : Nat → Decoder (List α)
  | 0 => return []
  | count + 1 => do
      let item ← decoder
      return item :: (← replicate decoder count)

/-- A count and that many elements. -/
def list (decoder : Decoder α) : Decoder (List α) := do
  replicate decoder (← uint32).toNat

end Decoder

end StackCoroutine
