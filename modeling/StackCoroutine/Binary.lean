/-!
Binary floating-point numbers held as their bit patterns, so that two of them are equal as data
exactly when their bits are. Comparison as numbers is a matter of its own: NaN is unordered and the
two zeros agree. A finite number is `significand · 2 ^ exponent` with a sign; the remainder is taken
exactly on these integers.
-/

namespace StackCoroutine

structure Binary32 where
  bits : UInt32
  deriving DecidableEq, Inhabited, Repr

structure Binary64 where
  bits : UInt64
  deriving DecidableEq, Inhabited, Repr

/-- A width of binary number: stored fraction bits and exponent bits. -/
structure BinaryWidth where
  fraction : Nat
  exponent : Nat
  deriving DecidableEq, Repr

namespace BinaryWidth

def single : BinaryWidth := ⟨23, 8⟩
def double : BinaryWidth := ⟨52, 11⟩

/-- Exponent of the least bit of a subnormal number, negated. -/
def scale (width : BinaryWidth) : Nat :=
  (1 <<< (width.exponent - 1)) - 2 + width.fraction

end BinaryWidth

/-- What a bit pattern denotes. A finite number is `significand · 2 ^ (power - scale)`. -/
inductive BinaryClass where
  | nan
  | infinite (negative : Bool)
  | finite (negative : Bool) (significand power : Nat)
  deriving DecidableEq, Repr

def BinaryClass.isFinite : BinaryClass → Bool
  | .finite .. => true
  | _ => false

namespace BinaryWidth

def classify (width : BinaryWidth) (bits : Nat) : BinaryClass :=
  let fraction := bits % (1 <<< width.fraction)
  let exponent := (bits >>> width.fraction) % (1 <<< width.exponent)
  let negative := (bits >>> (width.fraction + width.exponent)) % 2 == 1
  if exponent = (1 <<< width.exponent) - 1 then
    if fraction = 0 then .infinite negative else .nan
  else if exponent = 0 then .finite negative fraction 0
  else .finite negative (fraction + (1 <<< width.fraction)) (exponent - 1)

def signBit (width : BinaryWidth) (negative : Bool) : Nat :=
  if negative then 1 <<< (width.fraction + width.exponent) else 0

/-- The bits of a finite number whose significand needs no rounding at this width. -/
def assemble (width : BinaryWidth) (negative : Bool) (significand power : Nat) : Nat :=
  let length := if significand = 0 then 0 else significand.log2 + 1
  let excess := length - (width.fraction + 1)
  let narrowed := significand >>> excess
  let raised := power + excess
  let room := min raised (width.fraction + 1 - length)
  let shifted := narrowed <<< room
  let exponent := if shifted < (1 <<< width.fraction) then 0 else raised - room + 1
  width.signBit negative + (exponent <<< width.fraction) + shifted % (1 <<< width.fraction)

/-- Remainder of truncating division, with the sign of the dividend. The bits of a quiet NaN stand
for an undefined remainder. -/
def remainder (width : BinaryWidth) (dividend divisor : Nat) : Nat :=
  let undefined := (((1 <<< width.exponent) - 1) <<< width.fraction) + (1 <<< (width.fraction - 1))
  match width.classify dividend, width.classify divisor with
  | .finite negative m p, .finite _ n q =>
      if n = 0 then undefined
      else
        let base := min p q
        let rest := (m <<< (p - base)) % (n <<< (q - base))
        width.assemble negative rest base
  | .finite .., .infinite _ => dividend
  | _, _ => undefined

end BinaryWidth

namespace Binary64

def toFloat (x : Binary64) : Float := Float.ofBits x.bits
def ofFloat (x : Float) : Binary64 := ⟨x.toBits⟩

def classify (x : Binary64) : BinaryClass := BinaryWidth.double.classify x.bits.toNat

def zero : Binary64 := ⟨0⟩
def nan : Binary64 := ⟨0x7ff8000000000000⟩
def infinity : Binary64 := ⟨0x7ff0000000000000⟩

def add (x y : Binary64) : Binary64 := ofFloat (x.toFloat + y.toFloat)
def sub (x y : Binary64) : Binary64 := ofFloat (x.toFloat - y.toFloat)
def mul (x y : Binary64) : Binary64 := ofFloat (x.toFloat * y.toFloat)
def div (x y : Binary64) : Binary64 := ofFloat (x.toFloat / y.toFloat)

def rem (x y : Binary64) : Binary64 :=
  ⟨UInt64.ofNat (BinaryWidth.double.remainder x.bits.toNat y.bits.toNat)⟩

def neg (x : Binary64) : Binary64 := ⟨x.bits ^^^ 0x8000000000000000⟩

/-- Equality as numbers. -/
def eq (x y : Binary64) : Bool := x.toFloat == y.toFloat
def lt (x y : Binary64) : Bool := x.toFloat < y.toFloat

def toInt32 (x : Binary64) : Int32 := x.toFloat.toInt32
def toInt64 (x : Binary64) : Int64 := x.toFloat.toInt64
def ofInt32 (n : Int32) : Binary64 := ofFloat n.toFloat
def ofInt64 (n : Int64) : Binary64 := ofFloat n.toFloat
def ofUInt64 (n : UInt64) : Binary64 := ofFloat n.toFloat

/-- Rounds to the narrower width. -/
def narrow (x : Binary64) : Binary32 := ⟨x.toFloat.toFloat32.toBits⟩

end Binary64

namespace Binary32

def toFloat (x : Binary32) : Float32 := Float32.ofBits x.bits
def ofFloat (x : Float32) : Binary32 := ⟨x.toBits⟩

def classify (x : Binary32) : BinaryClass := BinaryWidth.single.classify x.bits.toNat

def zero : Binary32 := ⟨0⟩

def add (x y : Binary32) : Binary32 := ofFloat (x.toFloat + y.toFloat)
def sub (x y : Binary32) : Binary32 := ofFloat (x.toFloat - y.toFloat)
def mul (x y : Binary32) : Binary32 := ofFloat (x.toFloat * y.toFloat)
def div (x y : Binary32) : Binary32 := ofFloat (x.toFloat / y.toFloat)

def rem (x y : Binary32) : Binary32 :=
  ⟨UInt32.ofNat (BinaryWidth.single.remainder x.bits.toNat y.bits.toNat)⟩

def neg (x : Binary32) : Binary32 := ⟨x.bits ^^^ 0x80000000⟩

/-- Equality as numbers. -/
def eq (x y : Binary32) : Bool := x.toFloat == y.toFloat
def lt (x y : Binary32) : Bool := x.toFloat < y.toFloat

def toInt32 (x : Binary32) : Int32 := x.toFloat.toInt32
def toInt64 (x : Binary32) : Int64 := x.toFloat.toInt64
def ofInt32 (n : Int32) : Binary32 := ofFloat n.toFloat32
def ofInt64 (n : Int64) : Binary32 := ofFloat n.toFloat32
def ofUInt64 (n : UInt64) : Binary32 := ofFloat n.toFloat32

/-- The same number at the wider width. -/
def widen (x : Binary32) : Binary64 := ⟨x.toFloat.toFloat.toBits⟩

end Binary32

end StackCoroutine
