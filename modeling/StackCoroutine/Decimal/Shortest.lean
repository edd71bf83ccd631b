import StackCoroutine.Binary

/-!
The shortest decimal of a binary number: the fewest digits that read back as the same number, and of
those the nearest one. A number in the middle of two such decimals goes to one of them by a rule for
ties.
-/

namespace StackCoroutine.Decimal

/-- `digits · 10 ^ exponent`. -/
structure Scientific where
  digits : Nat
  exponent : Int
  deriving DecidableEq, Repr

/-- Which of two equally near decimals is taken. -/
inductive Tie where
  /-- The one with the even last digit. -/
  | even
  /-- The greater one. -/
  | up
  deriving DecidableEq, Repr

/-- Whether a tie between `floor` and the next number goes to `floor`. -/
def Tie.keeps : Tie → Nat → Bool
  | .even, floor => floor % 2 == 0
  | .up, _ => false

/-- The positive number `numerator / denominator` with the open or closed interval of numbers that
round to it, all over one denominator. -/
structure Interval where
  low : Nat
  value : Nat
  high : Nat
  denominator : Nat
  closed : Bool
  deriving DecidableEq, Repr

namespace Interval

/-- The numbers between the midpoints to both neighbours. At a power of two the lower neighbour is
half as far. -/
def ofFinite (width : BinaryWidth) (significand power : Nat) : Interval :=
  let lower := if significand = (1 <<< width.fraction) ∧ 0 < power then 1 else 2
  let factor := 1 <<< power
  { low := (4 * significand - lower) * factor
    value := 4 * significand * factor
    high := (4 * significand + 2) * factor
    denominator := 1 <<< (width.scale + 2)
    closed := significand % 2 = 0 }

def contains (range : Interval) (numerator denominator : Nat) : Bool :=
  let scaled := numerator * range.denominator
  if range.closed then
    range.low * denominator ≤ scaled && scaled ≤ range.high * denominator
  else
    range.low * denominator < scaled && scaled < range.high * denominator

/-- Numerator and denominator of `digits · 10 ^ exponent`. -/
def fraction (digits : Nat) (exponent : Int) : Nat × Nat :=
  if 0 ≤ exponent then (digits * Nat.pow 10 exponent.toNat, 1)
  else (digits, Nat.pow 10 (-exponent).toNat)

/-- The better of the two points of the grid `10 ^ exponent` around the value, if one lies in the
interval. -/
def pick? (range : Interval) (tie : Tie) (exponent : Int) : Option Nat :=
  let (unit, parts) := fraction 1 exponent
  let floor := range.value * parts / (range.denominator * unit)
  let rest := range.value * parts % (range.denominator * unit)
  let holds (digits : Nat) : Bool :=
    let (numerator, denominator) := fraction digits exponent
    0 < digits && range.contains numerator denominator
  match holds floor, holds (floor + 1) with
  | false, false => none
  | true, false => some floor
  | false, true => some (floor + 1)
  | true, true =>
      let double := 2 * rest
      let whole := range.denominator * unit
      if double < whole || (double == whole && tie.keeps floor) then some floor
      else some (floor + 1)

/-- The first grid with a point in the interval, from coarse to fine. -/
def search (range : Interval) (tie : Tie) : Nat → Int → Scientific
  | 0, exponent => ⟨(range.pick? tie exponent).getD 0, exponent⟩
  | steps + 1, exponent =>
      match range.pick? tie exponent with
      | some digits => ⟨digits, exponent⟩
      | none => range.search tie steps (exponent - 1)

/-- Least `k ≥ start` with `value < 10 ^ k`, looked for in at most the given number of steps. -/
def magnitudeFrom (range : Interval) : Nat → Int → Int
  | 0, k => k
  | steps + 1, k =>
      let (numerator, denominator) := fraction 1 k
      if range.value * denominator < numerator * range.denominator then k
      else range.magnitudeFrom steps (k + 1)

/-- An exponent of ten at or a little below the magnitude, from the binary length. -/
def estimate (range : Interval) : Int :=
  let binary : Int := (range.value.log2 : Int) - (range.denominator.log2 : Int)
  (binary - 1) * 30103 / 100000 - 1

def magnitude (range : Interval) : Int := range.magnitudeFrom 8 range.estimate

end Interval

/-- Drops the zeros at the end of the digits. -/
def trim : Nat → Scientific → Scientific
  | 0, written => written
  | steps + 1, written =>
      if written.digits ≠ 0 ∧ written.digits % 10 = 0 then
        trim steps ⟨written.digits / 10, written.exponent + 1⟩
      else written

/-- The shortest decimal of a positive finite number. -/
def shortest (width : BinaryWidth) (tie : Tie) (significand power : Nat) : Scientific :=
  let range := Interval.ofFinite width significand power
  trim 20 (range.search tie 18 (range.magnitude))

end StackCoroutine.Decimal
