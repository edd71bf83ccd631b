import StackCoroutine.CommandLine.Host
import StackCoroutine.CommandLine.Path

/-!
Directories and files held in memory, as surroundings for the commands. Nothing is known outside the
directory they run in.
-/

namespace StackCoroutine

inductive FileTree where
  | file (bytes : List UInt8)
  | directory (entries : List (String × FileTree))
  deriving Repr, Inhabited

namespace FileTree

def empty : FileTree := .directory []

def entry? (tree : FileTree) (name : String) : Option FileTree :=
  match tree with
  | .file _ => none
  | .directory entries => entries.lookup name

/-- What a list of names leads to. -/
def find? (tree : FileTree) (names : List String) : Option FileTree := names.foldlM entry? tree

def setEntry (entries : List (String × FileTree)) (name : String) (tree : FileTree) :
    List (String × FileTree) :=
  if entries.any fun entry => entry.1 == name then
    entries.map fun entry => if entry.1 == name then (name, tree) else entry
  else entries ++ [(name, tree)]

/-- Puts a tree where names lead to, through directories made as they are needed. -/
def put (tree : FileTree) (placed : FileTree) : List String → FileTree
  | [] => placed
  | name :: rest =>
      let inner := ((tree.entry? name).getD .empty).put placed rest
      match tree with
      | .file _ => .directory [(name, inner)]
      | .directory entries => .directory (setEntry entries name inner)

/-- Takes away what names lead to. -/
def erase (tree : FileTree) (names : List String) : FileTree :=
  match names.getLast?, tree.find? names.dropLast with
  | some last, some (.directory entries) =>
      tree.put (.directory (entries.filter fun entry => entry.1 != last)) names.dropLast
  | _, _ => tree

/-- The next name on the way from a directory. -/
def step (tree : FileTree) (place : List String) (name : String) :
    Except FileFault (List String) :=
  match tree.find? place with
  | none => .error .notFound
  | some (.file _) => .error .notDirectory
  | some (.directory _) =>
      if name = "." then .ok place
      else if name = ".." then
        if place.isEmpty then .error .notFound else .ok place.dropLast
      else if Path.nameLimit < name.utf8ByteSize then .error .nameTooLong
      else .ok (place ++ [name])

/-- The path is one of a place inside the directory. -/
def checkPath (path : String) : Except FileFault Unit :=
  if path.contains '\x00' then .error .nulInName
  else if Path.lengthLimit < path.utf8ByteSize then .error .nameTooLong
  else if path.startsWith "/" then .error .notFound
  else .ok ()

/-- The names a path stands for. The last of them need not be there. -/
def locate (tree : FileTree) (path : String) : Except FileFault (List String) := do
  checkPath path
  (Path.parts path).foldlM tree.step []

/-- The directory that holds what a path stands for, and the last name of the path. -/
def locateIn (tree : FileTree) (path : String) : Except FileFault (List String × String) := do
  checkPath path
  let parts := Path.parts (Path.withoutSlashes path)
  let place ← (parts.dropLast ++ ["."]).foldlM tree.step []
  return (place, parts.getLastD ".")

/-- A name that stands for a directory that is there already. -/
def isDots (name : String) : Bool := name == "." || name == ".."

/-- What is at a path. -/
def get (tree : FileTree) (path : String) : Except FileFault FileTree := do
  match tree.find? (← tree.locate path) with
  | some found => return found
  | none => throw .notFound

def entries (tree : FileTree) (path : String) : Except FileFault (List String) := do
  match ← tree.get path with
  | .file _ => throw .notDirectory
  | .directory entries => return entries.map Prod.fst

def read (tree : FileTree) (path : String) : Except FileFault (List UInt8) := do
  match ← tree.get path with
  | .file bytes => return bytes
  | .directory _ => throw .isDirectory

/-- A file cannot be made where a path ends with a slash, however long the name before it is. -/
def write (tree : FileTree) (path : String) (bytes : List UInt8) : Except FileFault FileTree := do
  let (parent, name) ← tree.locateIn path
  if isDots name || path.endsWith "/" then throw .isDirectory
  let place ← tree.step parent name
  match tree.find? place with
  | some (.directory _) => throw .isDirectory
  | _ => return tree.put (.file bytes) place

def makeDirectory (tree : FileTree) (path : String) : Except FileFault FileTree := do
  let (parent, name) ← tree.locateIn path
  if isDots name then throw .exists
  let place ← tree.step parent name
  if (tree.find? place).isSome then throw .exists
  return tree.put .empty place

def remove (tree : FileTree) (path : String) : Except FileFault FileTree := do
  match ← tree.get path with
  | .file _ => return tree.erase (← tree.locate path)
  | .directory _ => throw .isDirectory

mutual

/-- All files below a path, with their paths. -/
def files (path : List String) : FileTree → List (List String × List UInt8)
  | .file bytes => [(path, bytes)]
  | .directory entries => filesOf path entries

def filesOf (path : List String) :
    List (String × FileTree) → List (List String × List UInt8)
  | [] => []
  | (name, tree) :: rest => files (path ++ [name]) tree ++ filesOf path rest

end

end FileTree

/-- Surroundings in memory: the files, and what was printed, the latest first. -/
structure Workspace where
  tree : FileTree
  printed : List Span
  deriving Repr, Inhabited

namespace Workspace

/-- Changes the files unless that is refused. -/
def change (update : FileTree → Except FileFault FileTree) :
    StateM Workspace (Except FileFault Unit) :=
  modifyGet fun workspace =>
    match update workspace.tree with
    | .ok tree => (.ok (), { workspace with tree })
    | .error fault => (.error fault, workspace)

def asks (query : FileTree → α) : StateM Workspace α := return query (← get).tree

instance : Host (StateM Workspace) where
  isFile path := asks fun tree => (tree.read path).isOk
  isDirectory path := asks fun tree => (tree.entries path).isOk
  entries path := asks fun tree => tree.entries path
  read path := asks fun tree => tree.read path
  write path bytes := change fun tree => tree.write path bytes
  makeDirectory path := change fun tree => tree.makeDirectory path
  remove path := change fun tree => tree.remove path
  print span := modify fun workspace => { workspace with printed := span :: workspace.printed }

end Workspace

end StackCoroutine
