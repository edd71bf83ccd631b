import StackCoroutine.Class.Basic

/-!
The byte form of a class: magic bytes, version, unused flags, checksum of the rest, then the class.
-/

namespace StackCoroutine

open Bytes

def Constant.encode : Constant → List UInt8
  | .int value => 0 :: ofInt32 value
  | .long value => 1 :: ofInt64 value
  | .float value => 2 :: ofUInt32 value.bits
  | .double value => 3 :: ofUInt64 value.bits
  | .text value => 4 :: ofText value

def Field.encode (field : Field) : List UInt8 :=
  ofUInt16 field.access ++ ofText field.name ++ ofText field.descriptor ++
    match field.value with
    | none => [0]
    | some value => 1 :: value.encode

def TryBlock.encode (block : TryBlock) : List UInt8 :=
  block.start.encode ++ block.stop.encode ++ block.handler.encode ++ ofOptionalText block.caught

namespace Method

def encode (method : Method) : List UInt8 :=
  ofUInt16 method.access ++ ofText method.name ++ ofText method.descriptor ++
    ofUInt16 method.maxStack ++ ofUInt16 method.maxLocals ++
    ofList Insn.encode method.code ++ ofList TryBlock.encode method.tryBlocks

/-- Identity of the method: the checksum of its byte form as a signed number. -/
def contentHash (method : Method) : Int32 := (Checksum.ofBytes method.encode).toInt32

end Method

namespace Decoder

def constant : Decoder Constant := do
  let start ← offset
  match ← uint8 with
  | 0 => return .int (← int32)
  | 1 => return .long (← int64)
  | 2 => return .float ⟨← uint32⟩
  | 3 => return .double ⟨← uint64⟩
  | 4 => return .text (← text)
  | byte => throw (.invalidTag .constant byte start)

/-- Every presence byte but zero announces a constant. -/
def optionalConstant : Decoder (Option Constant) := do
  if (← uint8) = 0 then return none else return some (← constant)

def field : Decoder Field := return ⟨← uint16, ← text, ← text, ← optionalConstant⟩

def tryBlock : Decoder TryBlock := return ⟨← label, ← label, ← label, ← optionalText⟩

def method : Decoder Method :=
  return ⟨← uint16, ← text, ← text, ← uint16, ← uint16, ← list insn, ← list tryBlock⟩

def classBody : Decoder ClassFile :=
  return ⟨← uint16, ← text, ← optionalText, ← list text, ← list field, ← list method⟩

end Decoder

/-- Why a class file cannot be read. -/
inductive ClassError where
  | decode (cause : DecodeError)
  | invalidMagic (found : List UInt8)
  | unsupportedVersion (found : UInt32)
  | checksumMismatch (stored computed : UInt32)
  | json
  deriving DecidableEq, Repr

namespace ClassFile

def magic : List UInt8 := [0x52, 0x53, 0x55, 0x4D]

def version : UInt32 := 1

def headerLength : Nat := 16

def encodeBody (file : ClassFile) : List UInt8 :=
  ofUInt16 file.access ++ ofText file.name ++ ofOptionalText file.superName ++
    ofList ofText file.interfaces ++ ofList Field.encode file.fields ++
    ofList Method.encode file.methods

def encode (file : ClassFile) : List UInt8 :=
  magic ++ ofUInt32 version ++ ofUInt32 0 ++ ofUInt32 (Checksum.ofBytes file.encodeBody) ++
    file.encodeBody

/-- A step of decoding with the errors of its bytes. -/
def step (decoder : Decoder α) : ExceptT ClassError (StateM Cursor) α :=
  ExceptT.adapt ClassError.decode decoder

/-- Checks the header against the bytes after it. -/
def decodeHeader (payload : List UInt8) : ExceptT ClassError (StateM Cursor) Unit := do
  let found ← step (Decoder.bytes 4)
  if found ≠ magic then throw (.invalidMagic found)
  let number ← step Decoder.uint32
  if number ≠ version then throw (.unsupportedVersion number)
  let _ ← step Decoder.uint32
  let stored ← step Decoder.uint32
  let computed := Checksum.ofBytes payload
  if stored ≠ computed then throw (.checksumMismatch stored computed)

/-- The class a list of bytes is the form of; bytes after the class count for the checksum only. -/
def decode (bytes : List UInt8) : Except ClassError ClassFile :=
  let whole : ExceptT ClassError (StateM Cursor) ClassFile := do
    decodeHeader (bytes.drop headerLength)
    step Decoder.classBody
  (StateT.run (ExceptT.run whole) (Cursor.start bytes)).1

end ClassFile

/-- The text of four bytes in a message. -/
def ClassError.byteList (bytes : List UInt8) : String :=
  "[" ++ ", ".intercalate (bytes.map fun byte => toString byte.toNat) ++ "]"

def ClassError.message : ClassError → String
  | .decode cause => "Decode error: " ++ cause.message
  | .invalidMagic found => "Invalid magic number: expected RSUM, got " ++ byteList found
  | .unsupportedVersion found =>
      s!"Unsupported version: {found.toNat} (current: {ClassFile.version.toNat})"
  | .checksumMismatch stored computed =>
      "Checksum mismatch: expected " ++ Hex.marked stored.toNat ++ ", got " ++
        Hex.marked computed.toNat
  | .json => "JSON error"

end StackCoroutine
