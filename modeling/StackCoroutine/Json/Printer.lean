import StackCoroutine.Decimal.Layout
import StackCoroutine.Json.Basic
import StackCoroutine.Text.Hex

/-!
JSON text, either one item or member a line with an indent of two spaces, or without any space.
Numbers without a finite value are written as null.
-/

namespace StackCoroutine.Json

def escape (c : Char) : String :=
  match c with
  | '"' => "\\\""
  | '\\' => "\\\\"
  | '\n' => "\\n"
  | '\r' => "\\r"
  | '\t' => "\\t"
  | '\x08' => "\\b"
  | '\x0c' => "\\f"
  | c => if c.toNat < 0x20 then "\\u" ++ Hex.padded 4 c.toNat else c.toString

def quote (text : String) : String :=
  "\"" ++ String.join (text.toList.map escape) ++ "\""

def indent (level : Nat) : String := String.ofList (List.replicate (2 * level) ' ')

/-- Lines between an opening and a closing mark; without lines the marks stand together. -/
def block (level : Nat) (opening closing : String) : List String → String
  | [] => opening ++ closing
  | lines =>
      opening ++ "\n" ++ ",\n".intercalate (lines.map fun line => indent (level + 1) ++ line) ++
        "\n" ++ indent level ++ closing

/-- The text of a value without parts. -/
def leafText : Json → String
  | .bool value => if value then "true" else "false"
  | .integer value => toString value
  | .single value => Decimal.Layout.jsonSingle.single value
  | .double value => Decimal.Layout.jsonDouble.double value
  | .string value => quote value
  | _ => "null"

mutual

def printAt (level : Nat) : Json → String
  | .array items => block level "[" "]" (printItems (level + 1) items)
  | .object members => block level "\x7b" "\x7d" (printMembers (level + 1) members)
  | leaf => leafText leaf

def printItems (level : Nat) : List Json → List String
  | [] => []
  | item :: rest => printAt level item :: printItems level rest

def printMembers (level : Nat) : List (String × Json) → List String
  | [] => []
  | (name, value) :: rest => (quote name ++ ": " ++ printAt level value) :: printMembers level rest

end

def pretty (value : Json) : String := printAt 0 value

mutual

def compact : Json → String
  | .array items => "[" ++ ",".intercalate (compactItems items) ++ "]"
  | .object members => "\x7b" ++ ",".intercalate (compactMembers members) ++ "\x7d"
  | leaf => leafText leaf

def compactItems : List Json → List String
  | [] => []
  | item :: rest => compact item :: compactItems rest

def compactMembers : List (String × Json) → List String
  | [] => []
  | (name, value) :: rest => (quote name ++ ":" ++ compact value) :: compactMembers rest

end

mutual

/-- The value as its text tells it: numbers without a finite value are lost. -/
def finite : Json → Json
  | .single value => if value.classify.isFinite then .single value else .null
  | .double value => if value.classify.isFinite then .double value else .null
  | .array items => .array (finiteItems items)
  | .object members => .object (finiteMembers members)
  | leaf => leaf

def finiteItems : List Json → List Json
  | [] => []
  | item :: rest => finite item :: finiteItems rest

def finiteMembers : List (String × Json) → List (String × Json)
  | [] => []
  | (name, value) :: rest => (name, finite value) :: finiteMembers rest

end

end StackCoroutine.Json
