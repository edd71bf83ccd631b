import StackCoroutine.Decimal.Range
import StackCoroutine.Text.Hex

/-!
Numbers, moments and quoted texts of the settings language. A scan takes something from the start of
the text and leaves the rest, or fails.
-/

namespace StackCoroutine.Toml

abbrev Scan := StateT (List Char) Option

namespace Scan

def fail : Scan α := fun _ => none

/-- The next character, without taking it. -/
def peek? : Scan (Option Char) := fun text => some (text.head?, text)

def satisfy (test : Char → Bool) : Scan Char
  | c :: rest => if test c then some (c, rest) else none
  | [] => none

def char (wanted : Char) : Scan Unit := do let _ ← satisfy (· == wanted)

def takeWhile (test : Char → Bool) : Scan (List Char) := fun text =>
  some (text.takeWhile test, text.dropWhile test)

/-- Takes the given characters, if they follow. -/
def accept (wanted : List Char) : Scan Bool := fun text =>
  if wanted.isPrefixOf text then some (true, text.drop wanted.length) else some (false, text)

def expect (wanted : List Char) : Scan Unit := do
  if !(← accept wanted) then fail

/-- Tries a scan and leaves the text as it is if that fails. -/
def attempt (scan : Scan α) : Scan (Option α) := fun text =>
  match scan text with
  | some (value, rest) => some (some value, rest)
  | none => some (none, text)

def isBlank (c : Char) : Bool := c == ' ' || c == '\t'

def blanks : Scan Unit := do let _ ← takeWhile isBlank

/-- A character of a comment or a text in single quotes, the quote apart. -/
def isPlain (c : Char) : Bool := c == '\t' || (0x20 ≤ c.toNat && c.toNat != 0x7F)

def acceptNewline : Scan Bool := do
  if ← accept ['\n'] then return true
  accept ['\r', '\n']

def comment : Scan Unit := do
  if ← accept ['#'] then
    let _ ← takeWhile isPlain

/-- Digits of a base, underscores between them. -/
def digits (base : Nat) : Scan (List Nat) := do
  let isDigit (c : Char) : Bool := (Hex.digitValue? c).any (· < base)
  let written ← takeWhile fun c => isDigit c || c == '_'
  let parts := (String.ofList written).splitOn "_"
  if parts.any String.isEmpty then fail
  return written.filterMap Hex.digitValue?

/-- A number of exactly this many decimal digits. -/
def fixedDigits (count : Nat) : Scan Nat := do
  let rec go : Nat → Nat → Scan Nat
    | 0, value => return value
    | left + 1, value => do
        let c ← satisfy Char.isDigit
        go left (value * 10 + (c.toNat - '0'.toNat))
  go count 0

def valueOf (base : Nat) (digits : List Nat) : Nat :=
  digits.foldl (fun value digit => value * base + digit) 0

/-- Digits of a decimal number, which start with a zero only if that is all. -/
def wholeDigits : Scan (List Nat) := do
  if ← accept ['0'] then return [0] else digits 10

def sign : Scan Bool := do
  if ← accept ['-'] then return true
  let _ ← accept ['+']
  return false

/-- The digits behind a point, if one follows. -/
def fraction : Scan (Option (List Nat)) := do
  if ← accept ['.'] then return some (← digits 10) else return none

/-- The number behind the letter for an exponent, if one follows. -/
def exponent : Scan (Option Int) := do
  match ← peek? with
  | some 'e' | some 'E' => do
      let _ ← satisfy fun _ => true
      let negative ← sign
      let size := valueOf 10 (← digits 10)
      return some (if negative then -(size : Int) else size)
  | _ => return none

/-- A number with a fraction or an exponent, and whether it is negative. -/
def decimal : Scan (Bool × Decimal.Scientific) := do
  let negative ← sign
  let whole ← wholeDigits
  match ← fraction, ← exponent with
  | none, none => fail
  | places, shift =>
      let places := places.getD []
      return (negative, ⟨valueOf 10 (whole ++ places), shift.getD 0 - places.length⟩)

def daysIn (year month : Nat) : Nat :=
  if month == 2 then
    if year % 4 == 0 && (year % 100 != 0 || year % 400 == 0) then 29 else 28
  else if month == 4 || month == 6 || month == 9 || month == 11 then 30 else 31

def date : Scan Unit := do
  let year ← fixedDigits 4
  char '-'
  let month ← fixedDigits 2
  char '-'
  let day ← fixedDigits 2
  if month == 0 || 12 < month || day == 0 || daysIn year month < day then fail

def time : Scan Unit := do
  let hour ← fixedDigits 2
  char ':'
  let minute ← fixedDigits 2
  char ':'
  let second ← fixedDigits 2
  if 23 < hour || 59 < minute || 60 < second then fail
  if ← accept ['.'] then
    let _ ← satisfy Char.isDigit
    let _ ← takeWhile Char.isDigit

def timeOffset : Scan Unit := do
  let c ← satisfy fun c => c == 'Z' || c == 'z' || c == '+' || c == '-'
  if c == '+' || c == '-' then
    let hour ← fixedDigits 2
    char ':'
    let minute ← fixedDigits 2
    if 23 < hour || 59 < minute then fail

/-- A date, a time, or a date with a time. -/
def moment : Scan Unit := do
  match ← attempt date with
  | some () =>
      let _ ← attempt do
        let _ ← satisfy fun c => c == 'T' || c == 't' || c == ' '
        time
        let _ ← attempt timeOffset
  | none => time

/-- The character with a number written by so many hexadecimal digits. -/
def escapedCode (count : Nat) : Scan Char := do
  let rec go : Nat → Nat → Scan Nat
    | 0, value => return value
    | left + 1, value => do
        let c ← satisfy fun c => (Hex.digitValue? c).isSome
        go left (value * 16 + (Hex.digitValue? c).getD 0)
  let code ← go count 0
  if code < 0xD800 || (0xDFFF < code && code < 0x110000) then return Char.ofNat code else fail

/-- The character that an escape stands for. -/
def escaped : Scan Char := do
  match ← satisfy fun _ => true with
  | 'b' => return '\x08'
  | 't' => return '\t'
  | 'n' => return '\n'
  | 'f' => return '\x0c'
  | 'r' => return '\r'
  | '"' => return '"'
  | '\\' => return '\\'
  | 'u' => escapedCode 4
  | 'U' => escapedCode 8
  | _ => fail

/-- The rest of a text in double quotes. -/
def basicText : Nat → List Char → Scan String
  | 0, _ => fail
  | fuel + 1, done => do
      let c ← satisfy isPlain
      if c == '"' then return String.ofList done.reverse
      else if c == '\\' then basicText fuel ((← escaped) :: done)
      else basicText fuel (c :: done)

/-- Skips a line end and all blanks and line ends after it. -/
def skipLines : Nat → Scan Unit
  | 0 => return ()
  | fuel + 1 => do
      blanks
      if ← acceptNewline then skipLines fuel

/-- Quotes before the closing three of a text over several lines. -/
def closing (quote : Char) : Scan (Option (List Char)) := do
  if ← accept [quote, quote, quote] then
    if ← accept [quote] then
      if ← accept [quote] then return some [quote, quote] else return some [quote]
    else return some []
  else return none

/-- The rest of a text over several lines; backslashes escape unless the text is literal. -/
def longText (quote : Char) (literal : Bool) : Nat → List Char → Scan String
  | 0, _ => fail
  | fuel + 1, done => do
      match ← closing quote with
      | some quotes => return String.ofList (done.reverse ++ quotes)
      | none =>
          if ← acceptNewline then longText quote literal fuel ('\n' :: done)
          else
            let c ← satisfy isPlain
            if c == '\\' && !literal then
              match ← attempt (do blanks; if !(← acceptNewline) then fail) with
              | some () => do
                  skipLines fuel
                  longText quote literal fuel done
              | none => longText quote literal fuel ((← escaped) :: done)
            else longText quote literal fuel (c :: done)

def literalText : Scan String := do
  let content ← takeWhile fun c => isPlain c && c != '\''
  char '\''
  return String.ofList content

/-- A text on one line, from its opening quote. -/
def shortText (fuel : Nat) : Scan String := do
  if ← accept ['"'] then basicText fuel []
  else
    char '\''
    literalText

/-- A text of either kind, from its opening quote. -/
def anyText (fuel : Nat) : Scan String := do
  if ← accept ['"', '"', '"'] then
    let _ ← acceptNewline
    longText '"' false fuel []
  else if ← accept ['\'', '\'', '\''] then
    let _ ← acceptNewline
    longText '\'' true fuel []
  else shortText fuel

end Scan

end StackCoroutine.Toml
