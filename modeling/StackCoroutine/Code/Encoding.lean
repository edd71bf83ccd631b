import StackCoroutine.Bytes.Decoder
import StackCoroutine.Code.Opcode

/-!
The byte form of instructions: the operation code, then the operands. Decoding a list of
instructions ends where the bytes end.
-/

namespace StackCoroutine

namespace Kind

/-- Categories in the order of their operand bytes. -/
def tagged : List Kind := [.int, .long, .float, .double, .ref]

def tag : Kind → UInt8
  | .int => 0
  | .long => 1
  | .float => 2
  | .double => 3
  | .ref => 4

end Kind

namespace Condition

def tagged : List Condition := [.eq, .ne, .lt, .ge, .gt, .le]

def tag : Condition → UInt8
  | .eq => 0
  | .ne => 1
  | .lt => 2
  | .ge => 3
  | .gt => 4
  | .le => 5

end Condition

namespace BinaryOp

def tagged : List BinaryOp := [.add, .sub, .mul, .div, .rem, .and, .or, .xor]

def tag : BinaryOp → UInt8
  | .add => 0
  | .sub => 1
  | .mul => 2
  | .div => 3
  | .rem => 4
  | .and => 5
  | .or => 6
  | .xor => 7

end BinaryOp

namespace Dispatch

def tagged : List Dispatch := [.static, .virtual, .special, .interface]

def tag : Dispatch → UInt8
  | .static => 0
  | .virtual => 1
  | .special => 2
  | .interface => 3

end Dispatch

open Bytes in
def MethodRef.encode (method : MethodRef) : List UInt8 :=
  ofText method.owner ++ ofText method.name ++ ofText method.descriptor

open Bytes in
def FieldRef.encode (field : FieldRef) : List UInt8 :=
  ofText field.owner ++ ofText field.name ++ ofText field.descriptor

def Label.encode (label : Label) : List UInt8 := Bytes.ofUInt32 label.number

namespace Insn

/-- The operand byte of a return without a value. -/
def voidTag : UInt8 := 0xFF

open Bytes in
def operands : Insn → List UInt8
  | .label target | .jump target | .branchNull target | .branchNonNull target
  | .branchSame target | .branchDifferent target => target.encode
  | .line number => ofUInt32 number
  | .intConst value => ofInt32 value
  | .longConst value => ofInt64 value
  | .floatConst value => ofUInt32 value.bits
  | .doubleConst value => ofUInt64 value.bits
  | .textConst value => ofText value
  | .load kind slot | .store kind slot => kind.tag :: ofUInt16 slot
  | .increment slot amount => ofUInt16 slot ++ ofInt32 amount
  | .binary kind op => [kind.tag, op.tag]
  | .neg kind | .compare kind | .arrayLoad kind | .arrayStore kind => [kind.tag]
  | .convert source target => [source.tag, target.tag]
  | .branch condition target | .branchCompare condition target => condition.tag :: target.encode
  | .tableSwitch low default targets =>
      ofInt32 low ++ default.encode ++ ofList Label.encode targets
  | .new name | .checkCast name | .instanceOf name => ofText name
  | .getField field | .putField field | .getStatic field | .putStatic field => field.encode
  | .newArray element => ofText element.descriptor
  | .invoke dispatch method => dispatch.tag :: method.encode
  | .invokeDynamic name descriptor => ofText name ++ ofText descriptor
  | .return none => [voidTag]
  | .return (some kind) => [kind.tag]
  | .nop | .constNull | .pop | .dup | .dupBelow | .swap | .arrayLength | .throw
  | .monitorEnter | .monitorExit => []

def encode (insn : Insn) : List UInt8 := insn.opcode.byte :: insn.operands

end Insn

namespace Decoder

def opcode : Decoder Opcode := do
  let start ← offset
  let byte ← uint8
  match Opcode.ofByte? byte with
  | some opcode => return opcode
  | none => throw (.invalidOpcode byte start)

def label : Decoder Label := return ⟨← uint32⟩
def kind : Decoder Kind := tagged .kind Kind.tagged
def condition : Decoder Condition := tagged .condition Condition.tagged
def operator : Decoder BinaryOp := tagged .operator BinaryOp.tagged
def dispatch : Decoder Dispatch := tagged .dispatch Dispatch.tagged
def methodRef : Decoder MethodRef := return ⟨← text, ← text, ← text⟩
def fieldRef : Decoder FieldRef := return ⟨← text, ← text, ← text⟩

/-- The category of a return, or the byte of a return without a value. -/
def returnKind : Decoder (Option Kind) := do
  let start ← offset
  let byte ← uint8
  if byte = Insn.voidTag then return none
  else match Kind.tagged[byte.toNat]? with
    | some kind => return some kind
    | none => throw (.invalidTag .returnKind byte start)

def elementType : Decoder ValueType := do
  let start ← offset
  match ValueType.parse (← text) with
  | .ok type => return type
  | .error cause => throw (.invalidDescriptor start cause)

/-- The instruction with the given operation code. -/
def operands : Opcode → Decoder Insn
  | .label => return .label (← label)
  | .line => return .line (← uint32)
  | .nop => return .nop
  | .constNull => return .constNull
  | .intConst => return .intConst (← int32)
  | .longConst => return .longConst (← int64)
  | .floatConst => return .floatConst ⟨← uint32⟩
  | .doubleConst => return .doubleConst ⟨← uint64⟩
  | .textConst => return .textConst (← text)
  | .load => return .load (← kind) (← uint16)
  | .store => return .store (← kind) (← uint16)
  | .increment => return .increment (← uint16) (← int32)
  | .pop => return .pop
  | .dup => return .dup
  | .dupBelow => return .dupBelow
  | .swap => return .swap
  | .binary => return .binary (← kind) (← operator)
  | .neg => return .neg (← kind)
  | .convert => return .convert (← kind) (← kind)
  | .compare => return .compare (← kind)
  | .jump => return .jump (← label)
  | .branch => return .branch (← condition) (← label)
  | .branchCompare => return .branchCompare (← condition) (← label)
  | .branchNull => return .branchNull (← label)
  | .branchNonNull => return .branchNonNull (← label)
  | .branchSame => return .branchSame (← label)
  | .branchDifferent => return .branchDifferent (← label)
  | .tableSwitch => return .tableSwitch (← int32) (← label) (← list label)
  | .new => return .new (← text)
  | .getField => return .getField (← fieldRef)
  | .putField => return .putField (← fieldRef)
  | .getStatic => return .getStatic (← fieldRef)
  | .putStatic => return .putStatic (← fieldRef)
  | .checkCast => return .checkCast (← text)
  | .instanceOf => return .instanceOf (← text)
  | .newArray => return .newArray (← elementType)
  | .arrayLength => return .arrayLength
  | .arrayLoad => return .arrayLoad (← kind)
  | .arrayStore => return .arrayStore (← kind)
  | .invoke => return .invoke (← dispatch) (← methodRef)
  | .invokeDynamic => return .invokeDynamic (← text) (← text)
  | .return => return .return (← returnKind)
  | .throw => return .throw
  | .monitorEnter => return .monitorEnter
  | .monitorExit => return .monitorExit

def insn : Decoder Insn := do operands (← opcode)

/-- Instructions up to the end of the bytes. The bound on their number is that of the bytes. -/
def insnsWithin : Nat → Decoder (List Insn)
  | 0 => return []
  | bound + 1 => do
      if (← get).rest.isEmpty then return []
      else
        let first ← insn
        return first :: (← insnsWithin bound)

end Decoder

/-- The byte form of a list of instructions. -/
def encodeCode (code : List Insn) : List UInt8 := code.flatMap Insn.encode

/-- The instructions a list of bytes is the form of. -/
def decodeCode (bytes : List UInt8) : Except DecodeError (List Insn) :=
  (Decoder.insnsWithin bytes.length).runOn bytes

end StackCoroutine
