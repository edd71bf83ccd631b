import StackCoroutine.Class.Basic

/-!
The type hierarchy: superclass and interfaces of every known class. Assignability follows both
upward, with arrays covariant in reference elements; `commonSuper` is the type two references are
merged to. Searches are bounded by the number of classes, which no path through an acyclic hierarchy
exceeds.
-/

namespace StackCoroutine

structure ClassInfo where
  superName : Option String
  interfaces : List String
  isInterface : Bool
  deriving DecidableEq, Repr, Inhabited

/-- Known classes by name, the latest first; a later class of the same name replaces an earlier. -/
structure Hierarchy where
  entries : List (String × ClassInfo)
  deriving DecidableEq, Repr, Inhabited

namespace Hierarchy

def empty : Hierarchy := ⟨[]⟩

def add (hierarchy : Hierarchy) (name : String) (info : ClassInfo) : Hierarchy :=
  ⟨(name, info) :: hierarchy.entries.filter fun entry => entry.1 != name⟩

def addClass (hierarchy : Hierarchy) (file : ClassFile) : Hierarchy :=
  hierarchy.add file.name ⟨file.superName, file.interfaces, file.isInterface⟩

def addClasses (hierarchy : Hierarchy) (files : List ClassFile) : Hierarchy :=
  files.foldl addClass hierarchy

def find? (hierarchy : Hierarchy) (name : String) : Option ClassInfo :=
  hierarchy.entries.lookup name

def contains (hierarchy : Hierarchy) (name : String) : Bool := (hierarchy.find? name).isSome

def superClass? (hierarchy : Hierarchy) (name : String) : Option String :=
  (hierarchy.find? name).bind ClassInfo.superName

def interfaces (hierarchy : Hierarchy) (name : String) : List String :=
  match hierarchy.find? name with
  | some info => info.interfaces
  | none => []

def isInterface (hierarchy : Hierarchy) (name : String) : Bool :=
  match hierarchy.find? name with
  | some info => info.isInterface
  | none => false

/-- The classes every machine provides. -/
def builtins : Hierarchy :=
  let below (parent : Option String) (hierarchy : Hierarchy) (name : String) : Hierarchy :=
    hierarchy.add name ⟨parent, [], false⟩
  let roots := below none empty Names.object
  let near := [Names.text, Names.throwable].foldl (below (some Names.object)) roots
  let checked := below (some Names.throwable) near Names.exception
  let unchecked := below (some Names.exception) checked Names.runtimeException
  [Names.illegalState, Names.nullPointer, Names.arithmetic, Names.classCast,
    Names.indexOutOfBounds, Names.illegalMonitorState].foldl
    (below (some Names.runtimeException)) unchecked

/-- Direct supertypes of a class. -/
def parents (hierarchy : Hierarchy) (name : String) : List String :=
  hierarchy.interfaces name ++ (hierarchy.superClass? name).toList

/-- The target is reached from the source in at most the given number of steps upward. -/
def reaches (hierarchy : Hierarchy) (target : String) : Nat → String → Bool
  | 0, source => source == target
  | steps + 1, source =>
      source == target || (hierarchy.parents source).any (hierarchy.reaches target steps)

/-- More steps than an acyclic path upward can have. -/
def height (hierarchy : Hierarchy) : Nat := hierarchy.entries.length + 1

def isAssignableWithin (hierarchy : Hierarchy) : Nat → String → String → Bool
  | 0, _, _ => false
  | depth + 1, target, source =>
      if target = source ∨ target = Names.object then true
      else if source.startsWith "[" then
        match ValueType.ofInternalName target, ValueType.ofInternalName source with
        | .ok (.array wanted), .ok (.array given) =>
            if wanted.isReference ∧ given.isReference then
              hierarchy.isAssignableWithin depth wanted.internalName given.internalName
            else wanted = given
        | _, _ => false
      else hierarchy.reaches target hierarchy.height source

/-- A reference of internal name `source` can stand where `target` is expected. The element type of
an array has a shorter name, so the length of the name bounds the depth. -/
def isAssignable (hierarchy : Hierarchy) (target source : String) : Bool :=
  hierarchy.isAssignableWithin (source.length + 1) target source

/-- The first superclass from `name` upward that takes a `source`. -/
def firstTaking (hierarchy : Hierarchy) (source : String) : Nat → Option String → String
  | 0, _ | _, none => Names.object
  | steps + 1, some name =>
      if hierarchy.isAssignable name source then name
      else hierarchy.firstTaking source steps (hierarchy.superClass? name)

/-- The most specific class both internal names are assignable to. -/
def commonSuper (hierarchy : Hierarchy) (a b : String) : String :=
  if hierarchy.isAssignable a b then a
  else if hierarchy.isAssignable b a then b
  else if a.startsWith "[" || b.startsWith "[" || hierarchy.isInterface a || hierarchy.isInterface b
  then Names.object
  else hierarchy.firstTaking b hierarchy.height (hierarchy.superClass? a)

end Hierarchy

end StackCoroutine
