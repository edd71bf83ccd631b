import StackCoroutine.Binary
import StackCoroutine.MethodType

/-!
Instructions of the stack machine. A method body is a list of instructions; branch targets are
labels placed in the list. Moving a value on the stack moves it whole, also where it takes two
local slots.
-/

namespace StackCoroutine

/-- A branch target, unique within a method. -/
structure Label where
  number : UInt32
  deriving DecidableEq, Repr, Inhabited

def Label.text (label : Label) : String := "L" ++ toString label.number.toNat

inductive Condition where
  | eq
  | ne
  | lt
  | ge
  | gt
  | le
  deriving DecidableEq, Repr, Inhabited

def Condition.holds : Condition → Int32 → Int32 → Bool
  | .eq, a, b => a == b
  | .ne, a, b => a != b
  | .lt, a, b => a < b
  | .ge, a, b => b ≤ a
  | .gt, a, b => b < a
  | .le, a, b => a ≤ b

inductive BinaryOp where
  | add
  | sub
  | mul
  | div
  | rem
  | and
  | or
  | xor
  deriving DecidableEq, Repr, Inhabited

namespace BinaryOp

/-- The operators on bits exist for integers only. -/
def allowsFloat : BinaryOp → Bool
  | .and | .or | .xor => false
  | _ => true

def name : BinaryOp → String
  | .add => "Add"
  | .sub => "Sub"
  | .mul => "Mul"
  | .div => "Div"
  | .rem => "Rem"
  | .and => "And"
  | .or => "Or"
  | .xor => "Xor"

end BinaryOp

/-- How the target of a call is found. -/
inductive Dispatch where
  | static
  /-- By the class of the receiver. -/
  | virtual
  /-- Exactly the named method. -/
  | special
  /-- By the class of the receiver, through an interface. -/
  | interface
  deriving DecidableEq, Repr, Inhabited

def Dispatch.hasReceiver : Dispatch → Bool
  | .static => false
  | _ => true

structure MethodRef where
  owner : String
  name : String
  descriptor : String
  deriving DecidableEq, Repr, Inhabited

namespace MethodRef

def text (method : MethodRef) : String := method.owner ++ "." ++ method.name ++ method.descriptor

def type (method : MethodRef) : Except DescriptorError MethodType :=
  MethodType.parse method.descriptor

end MethodRef

structure FieldRef where
  owner : String
  name : String
  descriptor : String
  deriving DecidableEq, Repr, Inhabited

inductive Insn where
  | label (label : Label)
  | line (number : UInt32)
  | nop
  | constNull
  | intConst (value : Int32)
  | longConst (value : Int64)
  | floatConst (value : Binary32)
  | doubleConst (value : Binary64)
  | textConst (value : String)
  | load (kind : Kind) (slot : UInt16)
  | store (kind : Kind) (slot : UInt16)
  | increment (slot : UInt16) (amount : Int32)
  | pop
  | dup
  /-- Copies the top value below the second one. -/
  | dupBelow
  | swap
  | binary (kind : Kind) (op : BinaryOp)
  | neg (kind : Kind)
  | convert (source target : Kind)
  | compare (kind : Kind)
  | jump (target : Label)
  | branch (condition : Condition) (target : Label)
  | branchCompare (condition : Condition) (target : Label)
  | branchNull (target : Label)
  | branchNonNull (target : Label)
  | branchSame (target : Label)
  | branchDifferent (target : Label)
  /-- Keys from `low` on select a target in turn, all others the default. -/
  | tableSwitch (low : Int32) (default : Label) (targets : List Label)
  | new (className : String)
  | getField (field : FieldRef)
  | putField (field : FieldRef)
  | getStatic (field : FieldRef)
  | putStatic (field : FieldRef)
  | checkCast (name : String)
  | instanceOf (name : String)
  | newArray (element : ValueType)
  | arrayLength
  | arrayLoad (kind : Kind)
  | arrayStore (kind : Kind)
  | invoke (dispatch : Dispatch) (method : MethodRef)
  | invokeDynamic (name descriptor : String)
  | return (kind : Option Kind)
  | throw
  | monitorEnter
  | monitorExit
  deriving DecidableEq, Repr, Inhabited

namespace Insn

/-- A marker that never executes. -/
def isPseudo : Insn → Bool
  | .label _ | .line _ => true
  | _ => false

/-- Control never goes on to the next instruction. -/
def isTerminator : Insn → Bool
  | .jump _ | .tableSwitch .. | .return _ | .throw => true
  | _ => false

def isCall : Insn → Bool
  | .invoke .. | .invokeDynamic .. => true
  | _ => false

/-- Labels the instruction may branch to, the default of a table first. -/
def targets : Insn → List Label
  | .jump target | .branch _ target | .branchCompare _ target | .branchNull target
  | .branchNonNull target | .branchSame target | .branchDifferent target => [target]
  | .tableSwitch _ default targets => default :: targets
  | _ => []

/-- Labels the instruction defines or may branch to. -/
def labels : Insn → List Label
  | .label place => [place]
  | insn => insn.targets

/-- The same instruction, constants compared as numbers. -/
def agrees : Insn → Insn → Bool
  | .floatConst a, .floatConst b => a.eq b
  | .doubleConst a, .doubleConst b => a.eq b
  | a, b => a = b

end Insn

/-- A range of instructions, from `start` up to and without `stop`, whose exceptions go to a
handler. -/
structure TryBlock where
  start : Label
  stop : Label
  handler : Label
  /-- Class of the exceptions caught, every throwable if absent. -/
  caught : Option String
  deriving DecidableEq, Repr, Inhabited

def TryBlock.labels (block : TryBlock) : List Label := [block.start, block.stop, block.handler]

end StackCoroutine
