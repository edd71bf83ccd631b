import StackCoroutine.Code.Insn

/-!
Supply of labels that do not occur in a method yet, and the places where labels are defined.
-/

namespace StackCoroutine

/-- The next label to hand out. -/
structure LabelSupply where
  next : UInt32
  deriving DecidableEq, Repr, Inhabited

namespace LabelSupply

/-- Starts above every label of the code and its try blocks. -/
def above (code : List Insn) (blocks : List TryBlock) : LabelSupply :=
  let used := code.flatMap Insn.labels ++ blocks.flatMap TryBlock.labels
  match used with
  | [] => ⟨0⟩
  | _ => ⟨used.foldl (fun most label => max most label.number) 0 + 1⟩

def take (supply : LabelSupply) : Label × LabelSupply := (⟨supply.next⟩, ⟨supply.next + 1⟩)

end LabelSupply

/-- A computation that may take fresh labels. -/
abbrev Labelled := StateM LabelSupply

def freshLabel : Labelled Label := fun supply => supply.take

/-- Where a list of instructions defines each of its labels. -/
abbrev LabelTable := List (Label × Nat)

namespace LabelTable

def find? (table : LabelTable) (label : Label) : Option Nat := List.lookup label table

/-- The definitions from the given index on, or the first label defined again. -/
def collect (index : Nat) (known : LabelTable) : List Insn → Except Label LabelTable
  | [] => .ok known
  | .label label :: rest =>
      match known.find? label with
      | some _ => .error label
      | none => collect (index + 1) ((label, index) :: known) rest
  | _ :: rest => collect (index + 1) known rest

def ofCode (code : List Insn) : Except Label LabelTable := collect 0 [] code

end LabelTable

end StackCoroutine
