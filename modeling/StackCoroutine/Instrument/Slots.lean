import StackCoroutine.Frame.Basic

/-!
The local slots that generated code needs besides those of the method. They follow the method's own
slots in a fixed order, so that the layout depends on nothing but what the continuation points need.
-/

namespace StackCoroutine

/-- One thing for each category of values. -/
structure PerKind (α : Type) where
  int : α
  float : α
  long : α
  double : α
  ref : α
  deriving DecidableEq, Repr, Inhabited

namespace PerKind

def get (family : PerKind α) : Kind → α
  | .int => family.int
  | .float => family.float
  | .long => family.long
  | .double => family.double
  | .ref => family.ref

def ofFn (f : Kind → α) : PerKind α := ⟨f .int, f .float, f .long, f .double, f .ref⟩

def toList (family : PerKind α) : List α := Kind.all.map family.get

end PerKind

/-- Values of a category. -/
def countKind (kind : Kind) (values : List FrameValue) : Nat :=
  values.countP fun value => value.hasKind kind

/-- A local slot with the category it is used for. -/
structure Variable where
  slot : UInt16
  kind : Kind
  deriving DecidableEq, Repr, Inhabited

namespace Variable

def load (var : Variable) : Insn := .load var.kind var.slot
def store (var : Variable) : Insn := .store var.kind var.slot

end Variable

/-- The variables of monitor tracking. -/
structure LockVariables where
  state : Variable
  counter : Variable
  bound : Variable
  deriving DecidableEq, Repr, Inhabited

/-- What slots are needed for. -/
structure SlotRequest where
  /-- Slots of the method itself. -/
  maxLocals : UInt16
  contextSlot : UInt16
  /-- Frames that are saved. -/
  frames : List Frame
  /-- Categories of the results kept while a frame is restored. -/
  cachedKinds : List Kind
  needsThrowable : Bool
  hasMonitors : Bool
  deriving DecidableEq, Repr, Inhabited

structure SlotLayout where
  context : Variable
  savedFrame : Variable
  container : Variable
  /-- Arrays for the locals of a frame. -/
  localsStorage : PerKind (Option Variable)
  /-- Arrays for the operand stack of a frame. -/
  stackStorage : PerKind (Option Variable)
  cache : PerKind (Option Variable)
  throwable : Option Variable
  locks : Option LockVariables
  /-- The most locals of each category in any frame. -/
  localsMax : PerKind Nat
  /-- The most stack entries of each category in any frame. -/
  stackMax : PerKind Nat
  maxLocals : UInt16
  deriving DecidableEq, Repr, Inhabited

namespace SlotLayout

/-- A computation that knows the first slot not in use. -/
abbrev Taking := StateM Nat

def take (kind : Kind) : Taking Variable := fun next =>
  (⟨UInt16.ofNat next, kind⟩, next + kind.size)

def takeIf (needed : Bool) (kind : Kind) : Taking (Option Variable) :=
  if needed then return some (← take kind) else return none

/-- An array variable for every category that occurs. -/
def takeStorage (counts : PerKind Nat) : Taking (PerKind (Option Variable)) := do
  let int ← takeIf (0 < counts.int) .ref
  let float ← takeIf (0 < counts.float) .ref
  let long ← takeIf (0 < counts.long) .ref
  let double ← takeIf (0 < counts.double) .ref
  let ref ← takeIf (0 < counts.ref) .ref
  return ⟨int, float, long, double, ref⟩

def takeCache (kinds : List Kind) : Taking (PerKind (Option Variable)) := do
  let int ← takeIf (kinds.contains .int) .int
  let long ← takeIf (kinds.contains .long) .long
  let float ← takeIf (kinds.contains .float) .float
  let double ← takeIf (kinds.contains .double) .double
  let ref ← takeIf (kinds.contains .ref) .ref
  return ⟨int, float, long, double, ref⟩

def takeLocks (needed : Bool) : Taking (Option LockVariables) := do
  if needed then
    let state ← take .ref
    let counter ← take .int
    let bound ← take .int
    return some ⟨state, counter, bound⟩
  else return none

/-- The most values of each category in any of the lists. -/
def most (lists : List (List FrameValue)) : PerKind Nat :=
  .ofFn fun kind => (lists.map (countKind kind)).foldl max 0

/-- The layout without regard to the number of slots there can be. -/
def plan (request : SlotRequest) : Taking SlotLayout := do
  let localsMax := most (request.frames.map Frame.locals)
  let stackMax := most (request.frames.map Frame.stack)
  let savedFrame ← take .ref
  let container ← take .ref
  let localsStorage ← takeStorage localsMax
  let stackStorage ← takeStorage stackMax
  let cache ← takeCache request.cachedKinds
  let throwable ← takeIf request.needsThrowable .ref
  let locks ← takeLocks request.hasMonitors
  let last ← get
  return {
    context := ⟨request.contextSlot, .ref⟩
    savedFrame, container, localsStorage, stackStorage, cache, throwable, locks, localsMax, stackMax
    maxLocals := UInt16.ofNat last }

/-- The layout, unless it needs more slots than a method can have. -/
def ofRequest? (request : SlotRequest) : Option SlotLayout :=
  let (layout, last) := (plan request).run request.maxLocals.toNat
  if last ≤ 65535 then some layout else none

end SlotLayout

end StackCoroutine
