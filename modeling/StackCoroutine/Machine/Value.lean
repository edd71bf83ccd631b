import StackCoroutine.Coroutine.LockState
import StackCoroutine.Class.Basic
import StackCoroutine.Decimal.Layout

/-!
Values of the machine. Objects live in the heap and are referred to by number; the context of the
running coroutine lives outside it and has one handle.
-/

namespace StackCoroutine

/-- Number of a heap object. -/
structure ObjectRef where
  index : UInt32
  deriving DecidableEq, Repr, Inhabited

inductive Value where
  /-- The null reference, also the content of slots never written. -/
  | null
  | int (value : Int32)
  | long (value : Int64)
  | float (value : Binary32)
  | double (value : Binary64)
  | ref (object : ObjectRef)
  /-- The context of the running coroutine. -/
  | context
  deriving DecidableEq, Repr, Inhabited

/-- Why a value or method does not fit where it is used. -/
inductive TypeFault where
  | mismatch (wanted : String) (given : Value)
  | dangling (object : ObjectRef)
  | notText (className : String)
  | notArray (className : String)
  | missingArgument (method : String) (index : Nat)
  | neverLoaded
  | notContext (given : Value)
  | negativeArgument (index : Int32)
  | notThrowable (className : String)
  | notSavedFrame (className : String)
  | notLockState (className : String)
  | argumentCount (method : String) (wanted given : Nat)
  | tooFewLocals (method : String)
  | localOutOfRange (slot : UInt16)
  | fellOffEnd (method : String)
  | cannotNegate (given : Value)
  | operator (op : BinaryOp) (kind : Kind)
  | floatOperator (op : BinaryOp)
  | cannotLock (given : Value)
  | cannotConvert (given : Value) (target : Kind)
  | cannotCompare (given : Value)
  | nullText
  deriving DecidableEq, Repr

namespace Value

def ofKind : Kind → Value
  | .int => .int 0
  | .long => .long 0
  | .float => .float .zero
  | .double => .double .zero
  | .ref => .null

/-- Initial value of a declared type. -/
def ofType (type : ValueType) : Value :=
  match type.kind with
  | some kind => ofKind kind
  | none => .null

def kind : Value → Kind
  | .int _ => .int
  | .long _ => .long
  | .float _ => .float
  | .double _ => .double
  | .null | .ref _ | .context => .ref

def isNull : Value → Bool
  | .null => true
  | _ => false

def typeName : Value → String
  | .null => "null"
  | .int _ => "int"
  | .long _ => "long"
  | .float _ => "float"
  | .double _ => "double"
  | .ref _ => "object"
  | .context => "context"

def text : Value → String
  | .null => "null"
  | .int value => toString value.toInt
  | .long value => toString value.toInt
  | .float value => Decimal.Layout.plain.single value
  | .double value => Decimal.Layout.plain.double value
  | .ref object => "[object@" ++ toString object.index.toNat ++ "]"
  | .context => "[context]"

def asInt : Value → Except TypeFault Int32
  | .int value => .ok value
  | value => .error (.mismatch "int" value)

def asLong : Value → Except TypeFault Int64
  | .long value => .ok value
  | value => .error (.mismatch "long" value)

def asFloat : Value → Except TypeFault Binary32
  | .float value => .ok value
  | value => .error (.mismatch "float" value)

def asDouble : Value → Except TypeFault Binary64
  | .double value => .ok value
  | value => .error (.mismatch "double" value)

/-- The heap object, none for null. The context is no heap object. -/
def asObject : Value → Except TypeFault (Option ObjectRef)
  | .null => .ok none
  | .ref object => .ok (some object)
  | value => .error (.mismatch "object" value)

def expectKind (value : Value) (kind : Kind) : Except TypeFault Value :=
  if value.kind = kind then .ok value else .error (.mismatch kind.name value)

/-- Two handles of one monitor. -/
def isSameMonitor : Value → Value → Bool
  | .ref a, .ref b => a = b
  | .context, .context => true
  | _, _ => false

/-- The same value, floats compared as numbers. -/
def agrees : Value → Value → Bool
  | .float a, .float b => a.eq b
  | .double a, .double b => a.eq b
  | a, b => a = b

end Value

def TypeFault.message : TypeFault → String
  | .mismatch wanted given => "expected " ++ wanted ++ ", found " ++ given.typeName
  | .dangling object => "dangling reference " ++ toString object.index.toNat
  | .notText className => "expected string, found " ++ className
  | .notArray className => "expected array, found " ++ className
  | .missingArgument method index => method ++ s!": missing argument {index}"
  | .neverLoaded => "method state was never loaded"
  | .notContext given => "context method called on " ++ given.typeName
  | .negativeArgument index => "negative argument index " ++ toString index.toInt
  | .notThrowable className => className ++ " is not a throwable"
  | .notSavedFrame className => className ++ " is not a method state"
  | .notLockState className => className ++ " is not a lock state"
  | .argumentCount method wanted given => method ++ s!" takes {wanted} arguments, got {given}"
  | .tooFewLocals method => method ++ ": too few locals"
  | .localOutOfRange slot => "local " ++ toString slot.toNat ++ " out of range"
  | .fellOffEnd method => method ++ ": fell off the end of the code"
  | .cannotNegate given => "cannot negate " ++ given.typeName
  | .operator op kind => op.name ++ " on " ++ kind.name
  | .floatOperator op => op.name ++ " on floating point operands"
  | .cannotLock given => "cannot lock " ++ given.typeName
  | .cannotConvert given target => "cannot convert " ++ given.typeName ++ " to " ++ target.name
  | .cannotCompare given => "cannot compare " ++ given.typeName
  | .nullText => "null is not a string"

end StackCoroutine
