import StackCoroutine.Json.Number
import StackCoroutine.Text.Hex

/-!
Reading JSON text. Blanks are the space, the tab and the two line ends; nothing may follow the
value. Arrays and objects nest at most 127 deep; what lies deeper is checked for its form only.
-/

namespace StackCoroutine.Json

def isBlank (c : Char) : Bool := c == ' ' || c == '\n' || c == '\t' || c == '\r'

def skipBlanks (text : List Char) : List Char := text.dropWhile isBlank

/-- The number written by four hexadecimal digits. -/
def scanUnit? : List Char → Option (Nat × List Char)
  | a :: b :: c :: d :: rest => do
      let a ← Hex.digitValue? a
      let b ← Hex.digitValue? b
      let c ← Hex.digitValue? c
      let d ← Hex.digitValue? d
      return (((a * 16 + b) * 16 + c) * 16 + d, rest)
  | _ => none

def isLeading (unit : Nat) : Bool := 0xD800 ≤ unit && unit < 0xDC00
def isTrailing (unit : Nat) : Bool := 0xDC00 ≤ unit && unit < 0xE000

/-- The second half of a pair of units, if it follows. -/
def scanTrailing? : List Char → Option (Nat × List Char)
  | '\\' :: 'u' :: rest => do
      let (unit, after) ← scanUnit? rest
      if isTrailing unit then some (unit, after) else none
  | _ => none

/-- The character of an escape by number, `none` inside if the units are no character. -/
def scanEscapedUnit? (text : List Char) : Option (Option Char × List Char) := do
  let (unit, rest) ← scanUnit? text
  if isLeading unit then
    match scanTrailing? rest with
    | some (second, after) =>
        return (some (Char.ofNat (0x10000 + (unit - 0xD800) * 0x400 + (second - 0xDC00))), after)
    | none => return (none, rest)
  else if isTrailing unit then return (none, rest)
  else return (some (Char.ofNat unit), rest)

def escapedChar? : Char → Option Char
  | '"' => some '"'
  | '\\' => some '\\'
  | '/' => some '/'
  | 'b' => some '\x08'
  | 'f' => some '\x0c'
  | 'n' => some '\n'
  | 'r' => some '\r'
  | 't' => some '\t'
  | _ => none

/-- The character at the start of a text in quotes, after its escape if it has one. -/
def scanChar? : List Char → Option (Option Char × List Char)
  | [] => none
  | '\\' :: 'u' :: rest => scanEscapedUnit? rest
  | '\\' :: c :: rest => (escapedChar? c).map fun escaped => (some escaped, rest)
  | c :: rest => if c.toNat < 0x20 ∨ c = '\\' then none else some (some c, rest)

/-- The characters up to the closing quote, `none` inside if one of them cannot be read. -/
def scanText? : Nat → List Char → Option (Option (List Char) × List Char)
  | 0, _ => none
  | _, '"' :: rest => some (some [], rest)
  | fuel + 1, text =>
      match scanChar? text with
      | none => none
      | some (first, rest) =>
          match scanText? fuel rest with
          | none => none
          | some (others, after) =>
              some (match first, others with
                | some c, some cs => (some (c :: cs), after)
                | _, _ => (none, after))

def quoted? (fuel : Nat) (text : List Char) : Option (Option String × List Char) :=
  (scanText? fuel text).map fun (chars, rest) => (chars.map String.ofList, rest)

/-- Containers at this level are beyond the limit. -/
def depthLimit : Nat := 128

def enclosed (depth : Nat) (value : Json) : Json :=
  if depth + 1 < depthLimit then value else .unreadable

/-- An object whose members could all be named. -/
def objectOf (members : List (Option String × Json)) : Json :=
  match members.mapM fun (name, value) => name.map fun name => (name, value) with
  | some members => .object members
  | none => .unreadable

mutual

def scanValue? (fuel depth : Nat) (text : List Char) : Option (Json × List Char) :=
  match fuel with
  | 0 => none
  | fuel + 1 =>
      match skipBlanks text with
      | 'n' :: 'u' :: 'l' :: 'l' :: rest => some (.null, rest)
      | 't' :: 'r' :: 'u' :: 'e' :: rest => some (.bool true, rest)
      | 'f' :: 'a' :: 'l' :: 's' :: 'e' :: rest => some (.bool false, rest)
      | '"' :: rest =>
          match quoted? fuel rest with
          | none => none
          | some (some text, after) => some (.string text, after)
          | some (none, after) => some (.unreadable, after)
      | '[' :: rest =>
          match skipBlanks rest with
          | ']' :: after => some (enclosed depth (.array []), after)
          | _ =>
              match scanItems? fuel (depth + 1) rest with
              | none => none
              | some (items, after) => some (enclosed depth (.array items), after)
      | '\x7b' :: rest =>
          match skipBlanks rest with
          | '\x7d' :: after => some (enclosed depth (.object []), after)
          | _ =>
              match scanMembers? fuel (depth + 1) rest with
              | none => none
              | some (members, after) => some (enclosed depth (objectOf members), after)
      | rest => scanNumber? rest

/-- The items of an array that has some, with its closing bracket. -/
def scanItems? (fuel depth : Nat) (text : List Char) : Option (List Json × List Char) :=
  match fuel with
  | 0 => none
  | fuel + 1 =>
      match scanValue? fuel depth text with
      | none => none
      | some (item, rest) =>
          match skipBlanks rest with
          | ']' :: after => some ([item], after)
          | ',' :: more =>
              match scanItems? fuel depth more with
              | none => none
              | some (items, after) => some (item :: items, after)
          | _ => none

/-- The members of an object that has some, with its closing brace. -/
def scanMembers? (fuel depth : Nat) (text : List Char) :
    Option (List (Option String × Json) × List Char) :=
  match fuel with
  | 0 => none
  | fuel + 1 =>
      match skipBlanks text with
      | '"' :: named =>
          match quoted? fuel named with
          | none => none
          | some (name, rest) =>
              match skipBlanks rest with
              | ':' :: rest =>
                  match scanValue? fuel depth rest with
                  | none => none
                  | some (value, rest) =>
                      match skipBlanks rest with
                      | '\x7d' :: after => some ([(name, value)], after)
                      | ',' :: more =>
                          match scanMembers? fuel depth more with
                          | none => none
                          | some (members, after) => some ((name, value) :: members, after)
                      | _ => none
              | _ => none
      | _ => none

end

/-- The value a text is the form of. -/
def parse? (text : String) : Option Json :=
  let chars := text.toList
  match scanValue? (2 * chars.length + 4) 0 chars with
  | none => none
  | some (value, rest) => if (skipBlanks rest).isEmpty then some value else none

end StackCoroutine.Json
