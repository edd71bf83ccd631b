/-!
Paths of files, as text: names with slashes between them.
-/

namespace StackCoroutine.Path

def join (directory name : String) : String :=
  if directory.endsWith "/" then directory ++ name else directory ++ "/" ++ name

/-- What follows the last period of a name, unless nothing precedes it. -/
def extension? (name : String) : Option String :=
  match name.toList.reverse.span (· ≠ '.') with
  | (ending, _ :: _ :: _) => some (String.ofList ending.reverse)
  | _ => none

/-- The names of a path. A slash at its end asks for a directory, as a name of one period does. -/
def parts (path : String) : List String :=
  (path.splitOn "/").map fun name => if name.isEmpty then "." else name

/-- The path without slashes at its end. -/
def withoutSlashes (path : String) : String := (path.dropEndWhile '/').toString

/-- The names of a path that lead anywhere. -/
def steps (path : String) : List String :=
  (path.splitOn "/").filter fun name => !name.isEmpty && name != "."

/-- The path as it is written, and the paths of the directories above it, from the innermost on. -/
def ancestors (path : String) : List String :=
  let names := steps path
  let above (count : Nat) : String := "/".intercalate (names.take count)
  path :: ((List.range' 1 (names.length - 1)).map above).reverse

/-- Longest name in bytes. -/
def nameLimit : Nat := 255

/-- Longest path in bytes. -/
def lengthLimit : Nat := 4095

end StackCoroutine.Path
