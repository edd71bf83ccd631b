import StackCoroutine.Binary

/-!
JSON values. Members of an object keep their order and may repeat. Whole numbers and fractions are
told apart; a fraction knows whether it is a single or a double, which decides its digits.
-/

namespace StackCoroutine

inductive Json where
  | null
  | bool (value : Bool)
  | integer (value : Int)
  | single (value : Binary32)
  | double (value : Binary64)
  | string (value : String)
  | array (items : List Json)
  | object (members : List (String × Json))
  /-- Well-formed text without a value: an escape that is no character, a number out of range, or
  nesting that is too deep. -/
  | unreadable
  deriving Repr, Inhabited

namespace Json

def ofNat (value : Nat) : Json := .integer value

def ofOption (encode : α → Json) : Option α → Json
  | none => .null
  | some value => encode value

def ofList (encode : α → Json) (items : List α) : Json := .array (items.map encode)

/-- A value named by its single member. -/
def tagged (name : String) (value : Json) : Json := .object [(name, value)]

end Json

end StackCoroutine
