import StackCoroutine.Code.Insn

/-!
Operation codes: the first byte of every encoded instruction. The code of an instruction depends on
its constructor alone.
-/

namespace StackCoroutine

inductive Opcode where
  | nop
  | pop
  | dup
  | dupBelow
  | swap
  | constNull
  | intConst
  | longConst
  | floatConst
  | doubleConst
  | textConst
  | load
  | store
  | increment
  | binary
  | neg
  | convert
  | compare
  | jump
  | branch
  | branchCompare
  | branchNull
  | branchNonNull
  | branchSame
  | branchDifferent
  | tableSwitch
  | new
  | getField
  | putField
  | getStatic
  | putStatic
  | checkCast
  | instanceOf
  | newArray
  | arrayLength
  | arrayLoad
  | arrayStore
  | invoke
  | invokeDynamic
  | return
  | throw
  | monitorEnter
  | monitorExit
  | label
  | line
  deriving DecidableEq, Repr, Inhabited

namespace Opcode

def byte : Opcode → UInt8
  | .nop => 0x00
  | .pop => 0x01
  | .dup => 0x02
  | .dupBelow => 0x03
  | .swap => 0x04
  | .constNull => 0x08
  | .intConst => 0x09
  | .longConst => 0x0A
  | .floatConst => 0x0B
  | .doubleConst => 0x0C
  | .textConst => 0x0D
  | .load => 0x10
  | .store => 0x11
  | .increment => 0x12
  | .binary => 0x20
  | .neg => 0x21
  | .convert => 0x22
  | .compare => 0x23
  | .jump => 0x30
  | .branch => 0x31
  | .branchCompare => 0x32
  | .branchNull => 0x33
  | .branchNonNull => 0x34
  | .branchSame => 0x35
  | .branchDifferent => 0x36
  | .tableSwitch => 0x37
  | .new => 0x40
  | .getField => 0x41
  | .putField => 0x42
  | .getStatic => 0x43
  | .putStatic => 0x44
  | .checkCast => 0x45
  | .instanceOf => 0x46
  | .newArray => 0x50
  | .arrayLength => 0x51
  | .arrayLoad => 0x52
  | .arrayStore => 0x53
  | .invoke => 0x60
  | .invokeDynamic => 0x61
  | .return => 0x70
  | .throw => 0x71
  | .monitorEnter => 0x80
  | .monitorExit => 0x81
  | .label => 0xF0
  | .line => 0xF1

def ofByte? (byte : UInt8) : Option Opcode :=
  match byte with
  | 0x00 => some .nop
  | 0x01 => some .pop
  | 0x02 => some .dup
  | 0x03 => some .dupBelow
  | 0x04 => some .swap
  | 0x08 => some .constNull
  | 0x09 => some .intConst
  | 0x0A => some .longConst
  | 0x0B => some .floatConst
  | 0x0C => some .doubleConst
  | 0x0D => some .textConst
  | 0x10 => some .load
  | 0x11 => some .store
  | 0x12 => some .increment
  | 0x20 => some .binary
  | 0x21 => some .neg
  | 0x22 => some .convert
  | 0x23 => some .compare
  | 0x30 => some .jump
  | 0x31 => some .branch
  | 0x32 => some .branchCompare
  | 0x33 => some .branchNull
  | 0x34 => some .branchNonNull
  | 0x35 => some .branchSame
  | 0x36 => some .branchDifferent
  | 0x37 => some .tableSwitch
  | 0x40 => some .new
  | 0x41 => some .getField
  | 0x42 => some .putField
  | 0x43 => some .getStatic
  | 0x44 => some .putStatic
  | 0x45 => some .checkCast
  | 0x46 => some .instanceOf
  | 0x50 => some .newArray
  | 0x51 => some .arrayLength
  | 0x52 => some .arrayLoad
  | 0x53 => some .arrayStore
  | 0x60 => some .invoke
  | 0x61 => some .invokeDynamic
  | 0x70 => some .return
  | 0x71 => some .throw
  | 0x80 => some .monitorEnter
  | 0x81 => some .monitorExit
  | 0xF0 => some .label
  | 0xF1 => some .line
  | _ => none

def name : Opcode → String
  | .nop => "NOP"
  | .pop => "POP"
  | .dup => "DUP"
  | .dupBelow => "DUP_X1"
  | .swap => "SWAP"
  | .constNull => "CONST_NULL"
  | .intConst => "ICONST"
  | .longConst => "LCONST"
  | .floatConst => "FCONST"
  | .doubleConst => "DCONST"
  | .textConst => "SCONST"
  | .load => "LOAD"
  | .store => "STORE"
  | .increment => "IINC"
  | .binary => "BINARY"
  | .neg => "NEG"
  | .convert => "CONVERT"
  | .compare => "COMPARE"
  | .jump => "JUMP"
  | .branch => "IF"
  | .branchCompare => "IF_CMP"
  | .branchNull => "IF_NULL"
  | .branchNonNull => "IF_NONNULL"
  | .branchSame => "IF_REF_EQ"
  | .branchDifferent => "IF_REF_NE"
  | .tableSwitch => "TABLE_SWITCH"
  | .new => "NEW"
  | .getField => "GET_FIELD"
  | .putField => "PUT_FIELD"
  | .getStatic => "GET_STATIC"
  | .putStatic => "PUT_STATIC"
  | .checkCast => "CHECK_CAST"
  | .instanceOf => "INSTANCE_OF"
  | .newArray => "NEW_ARRAY"
  | .arrayLength => "ARRAY_LENGTH"
  | .arrayLoad => "ARRAY_LOAD"
  | .arrayStore => "ARRAY_STORE"
  | .invoke => "INVOKE"
  | .invokeDynamic => "INVOKE_DYNAMIC"
  | .return => "RETURN"
  | .throw => "THROW"
  | .monitorEnter => "MONITOR_ENTER"
  | .monitorExit => "MONITOR_EXIT"
  | .label => "LABEL"
  | .line => "LINE"

def isJump : Opcode → Bool
  | .jump | .branch | .branchCompare | .branchNull | .branchNonNull | .branchSame
  | .branchDifferent | .tableSwitch => true
  | _ => false

def isCall : Opcode → Bool
  | .invoke | .invokeDynamic => true
  | _ => false

def isPseudo : Opcode → Bool
  | .label | .line => true
  | _ => false

theorem ofByte?_byte (opcode : Opcode) : ofByte? opcode.byte = some opcode := by
  cases opcode <;> rfl

end Opcode

def Insn.opcode : Insn → Opcode
  | .label _ => .label
  | .line _ => .line
  | .nop => .nop
  | .constNull => .constNull
  | .intConst _ => .intConst
  | .longConst _ => .longConst
  | .floatConst _ => .floatConst
  | .doubleConst _ => .doubleConst
  | .textConst _ => .textConst
  | .load .. => .load
  | .store .. => .store
  | .increment .. => .increment
  | .pop => .pop
  | .dup => .dup
  | .dupBelow => .dupBelow
  | .swap => .swap
  | .binary .. => .binary
  | .neg _ => .neg
  | .convert .. => .convert
  | .compare _ => .compare
  | .jump _ => .jump
  | .branch .. => .branch
  | .branchCompare .. => .branchCompare
  | .branchNull _ => .branchNull
  | .branchNonNull _ => .branchNonNull
  | .branchSame _ => .branchSame
  | .branchDifferent _ => .branchDifferent
  | .tableSwitch .. => .tableSwitch
  | .new _ => .new
  | .getField _ => .getField
  | .putField _ => .putField
  | .getStatic _ => .getStatic
  | .putStatic _ => .putStatic
  | .checkCast _ => .checkCast
  | .instanceOf _ => .instanceOf
  | .newArray _ => .newArray
  | .arrayLength => .arrayLength
  | .arrayLoad _ => .arrayLoad
  | .arrayStore _ => .arrayStore
  | .invoke .. => .invoke
  | .invokeDynamic .. => .invokeDynamic
  | .return _ => .return
  | .throw => .throw
  | .monitorEnter => .monitorEnter
  | .monitorExit => .monitorExit

end StackCoroutine
