import StackCoroutine.Toml.Basic
import StackCoroutine.Toml.Scan

/-!
Reading documents of the settings language. Values nest less than 80 deep.
-/

namespace StackCoroutine.Toml

namespace Scan

/-- Values nest less deep than this. -/
def depthLimit : Nat := 80

def isKeyChar (c : Char) : Bool := c.isAlphanum || c == '-' || c == '_'

/-- One part of a name. -/
def keyPart (fuel : Nat) : Scan String := do
  match ← peek? with
  | some '"' | some '\'' => shortText fuel
  | _ =>
      let name ← takeWhile isKeyChar
      if name.isEmpty then fail
      return String.ofList name

/-- A dotted name. -/
def key : Nat → Scan (List String)
  | 0 => fail
  | fuel + 1 => do
      blanks
      let part ← keyPart fuel
      blanks
      if ← accept ['.'] then return part :: (← key fuel) else return [part]

def pathKey (fuel : Nat) : Scan (List String) := do
  let path ← key fuel
  if depthLimit ≤ path.length then fail
  return path

/-- An integer fits 64 bits. -/
def integer : Scan Unit := do
  let bounded (base : Nat) (digits : List Nat) : Scan Unit :=
    if valueOf base digits < 0x8000000000000000 then return () else fail
  if ← accept ['0', 'x'] then bounded 16 (← digits 16)
  else if ← accept ['0', 'o'] then bounded 8 (← digits 8)
  else if ← accept ['0', 'b'] then bounded 2 (← digits 2)
  else
    let negative ← sign
    let value := valueOf 10 (← wholeDigits)
    if (if negative then 0x8000000000000000 else 0x7FFFFFFFFFFFFFFF) < value then fail

def infinityOrNaN : Scan Unit := do
  let _ ← sign
  if !(← accept ['i', 'n', 'f']) then expect ['n', 'a', 'n']

/-- A number or a moment. A positive number that is too large for a double is refused. -/
def numeral : Scan Toml := do
  if (← attempt moment).isSome then return .moment
  match ← attempt decimal with
  | some (negative, written) =>
      if !negative && Decimal.overflows .double written then fail
      return .float
  | none =>
      if (← attempt infinityOrNaN).isSome then return .float
      integer
      return .integer

/-- Blanks, comments and line ends. -/
def spacing : Nat → Scan Unit
  | 0 => return ()
  | fuel + 1 => do
      blanks
      comment
      if ← acceptNewline then spacing fuel

mutual

def value (depth : Nat) : Nat → Scan Toml
  | 0 => fail
  | fuel + 1 => do
      match ← peek? with
      | some '"' | some '\'' => return .text (← anyText fuel)
      | some '[' => do
          char '['
          if depthLimit ≤ depth + 1 then fail
          spacing fuel
          if ← accept [']'] then return .array []
          else return .array (← items (depth + 1) fuel)
      | some '\x7b' => do
          char '\x7b'
          if depthLimit ≤ depth + 1 then fail
          blanks
          if ← accept ['\x7d'] then return .inlineTable []
          else
            let values ← entries (depth + 1) fuel
            match addAll? [] values with
            | some found => return .inlineTable found
            | none => fail
      | some 't' => do
          expect ['t', 'r', 'u', 'e']
          return .bool true
      | some 'f' => do
          expect ['f', 'a', 'l', 's', 'e']
          return .bool false
      | _ => numeral

/-- The items of an array that has some, with its closing bracket. -/
def items (depth : Nat) : Nat → Scan (List Toml)
  | 0 => fail
  | fuel + 1 => do
      let item ← value depth fuel
      spacing fuel
      if ← accept [']'] then return [item]
      else
        char ','
        spacing fuel
        if ← accept [']'] then return [item] else return item :: (← items depth fuel)

/-- The values of an inline table that has some, with its closing brace. -/
def entries (depth : Nat) : Nat → Scan (List (List String × Toml))
  | 0 => fail
  | fuel + 1 => do
      let path ← pathKey fuel
      char '='
      blanks
      let held ← value depth fuel
      blanks
      if ← accept ['\x7d'] then return [(path, held)]
      else
        char ','
        return (path, held) :: (← entries depth fuel)

end

/-- The end of a line, after blanks and a comment. -/
def lineEnd : Scan Unit := do
  blanks
  comment
  if !(← acceptNewline) then
    match ← peek? with
    | none => return ()
    | some _ => fail

/-- What a line holds. -/
inductive Line where
  | blank
  | header (header : Header)
  | entry (path : List String) (value : Toml)
  deriving Repr

def line (fuel : Nat) : Scan Line := do
  blanks
  match ← peek? with
  | none | some '\n' | some '\r' | some '#' => do
      lineEnd
      return .blank
  | some '[' => do
      let isRepeated ← accept ['[', '[']
      if !isRepeated then char '['
      let path ← pathKey fuel
      expect (if isRepeated then [']', ']'] else [']'])
      lineEnd
      return .header (if isRepeated then .repeated path else .single path)
  | some _ => do
      let path ← pathKey fuel
      char '='
      blanks
      let held ← value 0 fuel
      lineEnd
      return .entry path held

/-- The lines up to the end of the text. -/
def lines : Nat → Scan (List Line)
  | 0 => fail
  | fuel + 1 => do
      match ← peek? with
      | none => return []
      | some _ =>
          let first ← line fuel
          return first :: (← lines fuel)

end Scan

/-- The document of a list of lines, read from a section on. -/
def ofLines? (document : Entries) (header : Header) (values : List (List String × Toml)) :
    List Scan.Line → Option Entries
  | [] => addSection? document header values
  | .blank :: rest => ofLines? document header values rest
  | .entry path held :: rest => ofLines? document header (values ++ [(path, held)]) rest
  | .header next :: rest => do
      ofLines? (← addSection? document header values) next [] rest

/-- The document a text is the form of; a byte order mark before it is passed over. -/
def parse? (text : String) : Option Entries := do
  let chars := match text.toList with
    | '\ufeff' :: rest => rest
    | chars => chars
  let (found, _) ← (Scan.lines (2 * chars.length + 8)).run chars
  ofLines? [] .top [] found

end StackCoroutine.Toml
