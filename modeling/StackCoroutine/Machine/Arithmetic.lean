import StackCoroutine.Machine.Value

/-!
Arithmetic on values. Integers wrap around, division truncates, and a conversion of a float to an
integer clamps it; singles are computed with as doubles and rounded back.
-/

namespace StackCoroutine.Arithmetic

/-- Nothing for a division by zero. -/
def ints? : BinaryOp → Int32 → Int32 → Option Int32
  | .add, a, b => some (a + b)
  | .sub, a, b => some (a - b)
  | .mul, a, b => some (a * b)
  | .div, a, b => if b = 0 then none else some (a / b)
  | .rem, a, b => if b = 0 then none else some (a % b)
  | .and, a, b => some (a &&& b)
  | .or, a, b => some (a ||| b)
  | .xor, a, b => some (a ^^^ b)

/-- Nothing for a division by zero. -/
def longs? : BinaryOp → Int64 → Int64 → Option Int64
  | .add, a, b => some (a + b)
  | .sub, a, b => some (a - b)
  | .mul, a, b => some (a * b)
  | .div, a, b => if b = 0 then none else some (a / b)
  | .rem, a, b => if b = 0 then none else some (a % b)
  | .and, a, b => some (a &&& b)
  | .or, a, b => some (a ||| b)
  | .xor, a, b => some (a ^^^ b)

def doubles (op : BinaryOp) (a b : Binary64) : Except TypeFault Binary64 :=
  match op with
  | .add => .ok (a.add b)
  | .sub => .ok (a.sub b)
  | .mul => .ok (a.mul b)
  | .div => .ok (a.div b)
  | .rem => .ok (a.rem b)
  | .and | .or | .xor => .error (.floatOperator op)

/-- The result on two values of one category, nothing for a division by zero. -/
def binary? (kind : Kind) (op : BinaryOp) (a b : Value) : Except TypeFault (Option Value) :=
  match a, b with
  | .int a, .int b => .ok ((ints? op a b).map .int)
  | .long a, .long b => .ok ((longs? op a b).map .long)
  | .float a, .float b => (doubles op a.widen b.widen).map fun result => some (.float result.narrow)
  | .double a, .double b => (doubles op a b).map fun result => some (.double result)
  | _, _ => .error (.operator op kind)

def negate : Value → Except TypeFault Value
  | .int value => .ok (.int (-value))
  | .long value => .ok (.long (-value))
  | .float value => .ok (.float value.neg)
  | .double value => .ok (.double value.neg)
  | value => .error (.cannotNegate value)

def convert (value : Value) (target : Kind) : Except TypeFault Value :=
  match value, target with
  | .int value, .int => .ok (.int value)
  | .int value, .long => .ok (.long value.toInt64)
  | .int value, .float => .ok (.float (.ofInt32 value))
  | .int value, .double => .ok (.double (.ofInt32 value))
  | .long value, .int => .ok (.int value.toInt32)
  | .long value, .long => .ok (.long value)
  | .long value, .float => .ok (.float (.ofInt64 value))
  | .long value, .double => .ok (.double (.ofInt64 value))
  | .float value, .int => .ok (.int value.toInt32)
  | .float value, .long => .ok (.long value.toInt64)
  | .float value, .float => .ok (.float value)
  | .float value, .double => .ok (.double value.widen)
  | .double value, .int => .ok (.int value.toInt32)
  | .double value, .long => .ok (.long value.toInt64)
  | .double value, .float => .ok (.float value.narrow)
  | .double value, .double => .ok (.double value)
  | value, target => .error (.cannotConvert value target)

/-- The sign of a comparison, given both ways of being different. -/
def sign (less greater : Bool) : Int32 := if greater then 1 else if less then -1 else 0

/-- The sign of a comparison of floats; without an order it is that of less. -/
def compareDoubles (a b : Binary64) : Int32 :=
  if b.lt a then 1 else if a.eq b then 0 else -1

def compare (a b : Value) : Except TypeFault Int32 :=
  match a, b with
  | .int a, .int b => .ok (sign (a < b) (b < a))
  | .long a, .long b => .ok (sign (a < b) (b < a))
  | .float a, .float b => .ok (compareDoubles a.widen b.widen)
  | .double a, .double b => .ok (compareDoubles a b)
  | a, _ => .error (.cannotCompare a)

end StackCoroutine.Arithmetic
