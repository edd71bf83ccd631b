import StackCoroutine.Decimal.Shortest

/-!
Ways to write a binary number with its shortest digits. A layout says which digits a tie gives, for
which decimal exponents the number is written positionally and how the exponent is written
otherwise.
-/

namespace StackCoroutine.Decimal

structure Layout where
  /-- The choice between two decimals that are equally short and equally near. -/
  tie : Tie
  /-- Exponents of the leading digit that are written positionally; `none` for all. -/
  positional : Option (Int × Int)
  /-- A whole number is written with `.0`. -/
  pointed : Bool
  /-- A positive exponent is written with its sign. -/
  signedExponent : Bool
  notANumber : String
  infinity : String
  negativeInfinity : String
  deriving DecidableEq, Repr

namespace Layout

/-- Positional at every magnitude, without a point for whole numbers. -/
def plain : Layout := ⟨.up, none, false, false, "NaN", "inf", "-inf"⟩

/-- A number with its point, in scientific form below `1e-4` and from `1e16` on. -/
def detailed : Layout := ⟨.up, some (-4, 15), true, false, "NaN", "inf", "-inf"⟩

/-- JSON text of a double. -/
def jsonDouble : Layout := ⟨.even, some (-5, 15), true, true, "null", "null", "null"⟩

/-- JSON text of a single. -/
def jsonSingle : Layout := ⟨.even, some (-6, 12), true, true, "null", "null", "null"⟩

def positionalText (layout : Layout) (written : Scientific) : String :=
  let digits := Nat.toDigits 10 written.digits
  if 0 ≤ written.exponent then
    String.ofList (digits ++ List.replicate written.exponent.toNat '0')
      ++ (if layout.pointed then ".0" else "")
  else
    let places := (-written.exponent).toNat
    let filled := List.replicate (places + 1 - digits.length) '0' ++ digits
    let whole := filled.length - places
    String.ofList (filled.take whole) ++ "." ++ String.ofList (filled.drop whole)

def scientificText (layout : Layout) (written : Scientific) : String :=
  let digits := Nat.toDigits 10 written.digits
  let exponent := written.exponent + (digits.length - 1 : Nat)
  let mantissa := match digits with
    | first :: second :: rest => String.ofList (first :: '.' :: second :: rest)
    | few => String.ofList few
  let sign := if exponent < 0 then "-" else if layout.signedExponent then "+" else ""
  mantissa ++ "e" ++ sign ++ toString exponent.natAbs

def unsigned (layout : Layout) (written : Scientific) : String :=
  let leading := written.exponent + ((Nat.toDigits 10 written.digits).length - 1 : Nat)
  let fits := match layout.positional with
    | none => true
    | some (least, most) => least ≤ leading && leading ≤ most
  if fits then layout.positionalText written else layout.scientificText written

def write (layout : Layout) (width : BinaryWidth) : BinaryClass → String
  | .nan => layout.notANumber
  | .infinite negative => if negative then layout.negativeInfinity else layout.infinity
  | .finite negative significand power =>
      (if negative then "-" else "") ++
        (if significand = 0 then (if layout.pointed then "0.0" else "0")
        else layout.unsigned (shortest width layout.tie significand power))

def double (layout : Layout) (x : Binary64) : String := layout.write .double x.classify
def single (layout : Layout) (x : Binary32) : String := layout.write .single x.classify

end Layout

end StackCoroutine.Decimal
