import StackCoroutine.Decimal.Shortest

/-!
Decimals beyond the range of a binary width. The first of them lies in the middle between the
greatest finite number and the power of two after it, as a number in the middle goes to the even
significand.
-/

namespace StackCoroutine.Decimal

/-- The least number that is rounded to infinity. -/
def overflowBound (width : BinaryWidth) : Nat :=
  ((1 <<< (width.fraction + 2)) - 1) <<< ((1 <<< (width.exponent - 1)) - width.fraction - 2)

/-- Whether a decimal is rounded to infinity. Only one with as many digits before the point as the
bound has is compared with it. -/
def overflows (width : BinaryWidth) (written : Scientific) : Bool :=
  let bound := overflowBound width
  let length (n : Nat) : Int := (Nat.toDigits 10 n).length
  let leading := length written.digits + written.exponent
  if written.digits = 0 || leading < length bound then false
  else if length bound < leading then true
  else
    let (numerator, denominator) := Interval.fraction written.digits written.exponent
    bound * denominator ≤ numerator

end StackCoroutine.Decimal
