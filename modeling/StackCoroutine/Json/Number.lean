import StackCoroutine.Json.Basic

/-!
Numbers in JSON text. A number without fraction and exponent that fits 64 bits is whole. Any other
is a double made in two steps: the leading digits that fit 64 bits are rounded to a double, which is
then multiplied or divided by a power of ten.
-/

namespace StackCoroutine.Json

/-- A number as written: digits before the point, digits after it, and the exponent. -/
structure Numeral where
  negative : Bool
  whole : List Nat
  fraction : Option (List Nat)
  exponent : Option (Bool × List Nat)
  deriving DecidableEq, Repr

/-- Adds a digit to the significand if the result fits 64 bits. -/
def pushDigit? (significand digit : Nat) : Option Nat :=
  let next := significand * 10 + digit
  if next < 0x10000000000000000 then some next else none

/-- The digits before the point: the significand, and how many digits do not fit it. -/
def gatherWhole (significand : Nat) : List Nat → Nat × Nat
  | [] => (significand, 0)
  | digit :: rest =>
      match pushDigit? significand digit with
      | some next => gatherWhole next rest
      | none => (significand, rest.length + 1)

/-- The digits after the point: the significand, and how many of them it takes in. -/
def gatherFraction (significand : Nat) : List Nat → Nat × Nat
  | [] => (significand, 0)
  | digit :: rest =>
      match pushDigit? significand digit with
      | some next =>
          let (last, taken) := gatherFraction next rest
          (last, taken + 1)
      | none => (significand, 0)

def powerOfTen (exponent : Nat) : Binary64 := .ofFloat (OfScientific.ofScientific 1 false exponent)

/-- Divides by powers of ten in steps that are in range. -/
def divideDown : Nat → Binary64 → Nat → Binary64
  | 0, value, _ => value
  | steps + 1, value, exponent =>
      if exponent ≤ 308 then value.div (powerOfTen exponent)
      else if value.eq .zero then value
      else divideDown steps (value.div (powerOfTen 308)) (exponent - 308)

/-- `significand · 10 ^ exponent`, or nothing if it is out of range. -/
def scale? (significand : Nat) (exponent : Int) : Option Binary64 :=
  let value := Binary64.ofUInt64 (UInt64.ofNat significand)
  if exponent < 0 then some (divideDown 4 value exponent.natAbs)
  else if exponent ≤ 308 then
    let scaled := value.mul (powerOfTen exponent.toNat)
    if scaled.classify.isFinite then some scaled else none
  else if significand = 0 then some value
  else none

/-- The digits of an exponent as a number, if it fits 31 bits. -/
def exponentValue? (digits : List Nat) : Option Nat :=
  let value := digits.foldl (fun sum digit => min (sum * 10 + digit) 0x80000000) 0
  if value < 0x80000000 then some value else none

namespace Numeral

def magnitude? (numeral : Numeral) : Option Binary64 :=
  let (integral, dropped) := gatherWhole 0 numeral.whole
  let (significand, taken) := gatherFraction integral (numeral.fraction.getD [])
  let base : Int := dropped - taken
  match numeral.exponent with
  | none => scale? significand base
  | some (negative, digits) =>
      match exponentValue? digits with
      | some exponent => scale? significand (if negative then base - exponent else base + exponent)
      | none => if significand ≠ 0 ∧ !negative then none else some .zero

def toDouble? (numeral : Numeral) : Option Binary64 :=
  numeral.magnitude?.map fun value => if numeral.negative then value.neg else value

def value (numeral : Numeral) : Json :=
  let real := match numeral.toDouble? with
    | some value => .double value
    | none => .unreadable
  match numeral.fraction, numeral.exponent, gatherWhole 0 numeral.whole with
  | none, none, (significand, 0) =>
      if !numeral.negative then .integer significand
      else if significand ≠ 0 ∧ significand ≤ 0x8000000000000000 then .integer (-significand)
      else real
  | _, _, _ => real

end Numeral

def digitValue? (c : Char) : Option Nat :=
  if '0' ≤ c ∧ c ≤ '9' then some (c.toNat - 48) else none

/-- The digits at the start of a text and what follows them. -/
def scanDigits : List Char → List Nat × List Char
  | [] => ([], [])
  | c :: rest =>
      match digitValue? c with
      | none => ([], c :: rest)
      | some digit =>
          let (digits, after) := scanDigits rest
          (digit :: digits, after)

/-- At least one digit. -/
def scanDigits? (text : List Char) : Option (List Nat × List Char) :=
  match scanDigits text with
  | ([], _) => none
  | found => some found

/-- Digits before the point; only a lone zero starts with zero. -/
def scanWhole? (text : List Char) : Option (List Nat × List Char) :=
  match scanDigits? text with
  | some (0 :: _ :: _, _) => none
  | found => found

def scanFraction? : List Char → Option (Option (List Nat) × List Char)
  | '.' :: rest => (scanDigits? rest).map fun (digits, after) => (some digits, after)
  | text => some (none, text)

def scanExponentDigits? (negative : Bool) (text : List Char) :
    Option (Option (Bool × List Nat) × List Char) :=
  (scanDigits? text).map fun (digits, after) => (some (negative, digits), after)

def scanExponentSign? : List Char → Option (Option (Bool × List Nat) × List Char)
  | '+' :: rest => scanExponentDigits? false rest
  | '-' :: rest => scanExponentDigits? true rest
  | text => scanExponentDigits? false text

def scanExponent? : List Char → Option (Option (Bool × List Nat) × List Char)
  | 'e' :: rest => scanExponentSign? rest
  | 'E' :: rest => scanExponentSign? rest
  | text => some (none, text)

def scanUnsigned? (negative : Bool) (text : List Char) : Option (Numeral × List Char) := do
  let (whole, rest) ← scanWhole? text
  let (fraction, rest) ← scanFraction? rest
  let (exponent, rest) ← scanExponent? rest
  return (⟨negative, whole, fraction, exponent⟩, rest)

/-- The number at the start of a text and what follows it. -/
def scanNumber? : List Char → Option (Json × List Char)
  | '-' :: rest => (scanUnsigned? true rest).map fun (numeral, after) => (numeral.value, after)
  | text => (scanUnsigned? false text).map fun (numeral, after) => (numeral.value, after)

end StackCoroutine.Json
