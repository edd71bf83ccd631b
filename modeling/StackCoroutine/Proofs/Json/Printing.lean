import StackCoroutine.Proofs.Json.Numerals
import StackCoroutine.Proofs.Json.Text

/-!
Printed values are read back. `reread` is the value that the text of a value stands for: the value
itself but for its fractions, which are what their digits are read as, or null. The text of a value
is read as that value if its containers nest above the limit of depth, its whole numbers have 64
bits and its fractions can be read at all.
-/

namespace StackCoroutine.Json

mutual

/-- What the text of a value stands for. -/
def reread : Json → Json
  | .single value => (parse? (leafText (.single value))).getD .unreadable
  | .double value => (parse? (leafText (.double value))).getD .unreadable
  | .array items => .array (rereadItems items)
  | .object members => .object (rereadMembers members)
  | .unreadable => .null
  | leaf => leaf

def rereadItems : List Json → List Json
  | [] => []
  | item :: rest => reread item :: rereadItems rest

def rereadMembers : List (String × Json) → List (String × Json)
  | [] => []
  | (name, value) :: rest => (name, reread value) :: rereadMembers rest

end

/-- A value at the given depth whose text can be read. -/
inductive Legible : Nat → Json → Prop
  | null {depth : Nat} : Legible depth .null
  | bool {depth : Nat} {value : Bool} : Legible depth (.bool value)
  | integer {depth : Nat} {value : Int} (range : InRange value) : Legible depth (.integer value)
  | single {depth : Nat} {value : Binary32} {read : Json}
      (parsed : parse? (leafText (.single value)) = some read) : Legible depth (.single value)
  | double {depth : Nat} {value : Binary64} {read : Json}
      (parsed : parse? (leafText (.double value)) = some read) : Legible depth (.double value)
  | string {depth : Nat} {text : String} : Legible depth (.string text)
  | array {depth : Nat} {items : List Json} (above : depth + 1 < depthLimit)
      (legible : ∀ item ∈ items, Legible (depth + 1) item) : Legible depth (.array items)
  | object {depth : Nat} {members : List (String × Json)} (above : depth + 1 < depthLimit)
      (legible : ∀ member ∈ members, Legible (depth + 1) member.2) : Legible depth (.object members)

/-- The end of a line with the indent of the next one. -/
def newline (level : Nat) : List Char := '\n' :: (indent level).toList

/-- A layout that writes null where a number is not finite. -/
def WritesNull (layout : Decimal.Layout) : Prop :=
  layout.notANumber = "null" ∧ layout.infinity = "null" ∧ layout.negativeInfinity = "null"

theorem jsonSingle_writesNull : WritesNull Decimal.Layout.jsonSingle := ⟨rfl, rfl, rfl⟩

theorem jsonDouble_writesNull : WritesNull Decimal.Layout.jsonDouble := ⟨rfl, rfl, rfl⟩

theorem WritesNull.write {layout : Decimal.Layout} (nulls : WritesNull layout) (width : BinaryWidth)
    {number : BinaryClass} (infinite : number.isFinite = false) :
    layout.write width number = "null" := by
  cases number with
  | nan => exact nulls.1
  | infinite negative =>
      cases negative with
      | false => exact nulls.2.1
      | true => exact nulls.2.2
  | finite => cases infinite

end StackCoroutine.Json
