import StackCoroutine.Hierarchy
import StackCoroutine.Code.Labels

/-!
Frames: the types of the local slots and of the operand stack before an instruction. A long or
double in a slot leaves the next slot uninitialized; on the stack every value is one entry.
-/

namespace StackCoroutine

inductive FrameValue where
  /-- No usable value. -/
  | uninitialized
  | int
  | float
  | long
  | double
  | reference (name : String)
  /-- The null constant, which every reference type takes. -/
  | null
  deriving DecidableEq, Repr, Inhabited

namespace FrameValue

def ofKind (kind : Kind) (name : String) : FrameValue :=
  match kind with
  | .int => .int
  | .long => .long
  | .float => .float
  | .double => .double
  | .ref => .reference name

/-- The value of a declared type, none for void. -/
def ofType? (type : ValueType) : Option FrameValue :=
  type.kind.map fun kind => ofKind kind type.internalName

def kind : FrameValue → Option Kind
  | .uninitialized => none
  | .int => some .int
  | .float => some .float
  | .long => some .long
  | .double => some .double
  | .reference _ | .null => some .ref

def hasKind (value : FrameValue) (kind : Kind) : Bool := value.kind == some kind

def text : FrameValue → String
  | .uninitialized => "uninitialized"
  | .int => "int"
  | .float => "float"
  | .long => "long"
  | .double => "double"
  | .reference name => "ref " ++ name
  | .null => "null"

/-- Local slots of the value. -/
def size (value : FrameValue) : Nat :=
  match value.kind with
  | some kind => kind.size
  | none => 1

/-- The type that covers both values. -/
def merge (hierarchy : Hierarchy) (a b : FrameValue) : FrameValue :=
  if a = b then a
  else match a, b with
    | .null, .reference name | .reference name, .null => .reference name
    | .reference x, .reference y => .reference (hierarchy.commonSuper x y)
    | _, _ => .uninitialized

end FrameValue

structure Frame where
  locals : List FrameValue
  /-- Top first. -/
  stack : List FrameValue
  deriving DecidableEq, Repr, Inhabited

/-- What an instruction asks for. -/
inductive Wanted where
  | kind (kind : Kind)
  | numeric
  | operands (op : BinaryOp)
  deriving DecidableEq, Repr

def Wanted.text : Wanted → String
  | .kind category => category.name
  | .numeric => "numeric"
  | .operands op => "operands for " ++ op.name

/-- What it gets instead. -/
inductive Given where
  | value (value : FrameValue)
  | kind (kind : Kind)
  deriving DecidableEq, Repr

def Given.text : Given → String
  | .value found => found.text
  | .kind category => category.name

inductive AnalyzeError where
  | duplicateLabel (label : Label)
  | undefinedLabel (label : Label)
  | invalidTryRange (start stop : Label)
  | stackUnderflow (index : Nat)
  | typeMismatch (index : Nat) (wanted : Wanted) (given : Given)
  | localOutOfRange (index slot maxLocals : Nat)
  | tooFewLocals (needed maxLocals : Nat)
  | stackHeightMismatch (index first second : Nat)
  | incompatibleStack (index slot : Nat) (first second : FrameValue)
  | returnMismatch (index : Nat) (result : Option Kind)
  | fallsOffEnd
  /-- The bound on the visits of instructions is used up. -/
  | visitLimit
  | descriptor (cause : DescriptorError)
  deriving DecidableEq, Repr

def AnalyzeError.message : AnalyzeError → String
  | .duplicateLabel label => "Label " ++ label.text ++ " defined more than once"
  | .undefinedLabel label => "Undefined label " ++ label.text
  | .invalidTryRange start stop =>
      "Try/catch range " ++ start.text ++ ".." ++ stop.text ++ " is empty or reversed"
  | .stackUnderflow index => s!"Stack underflow at instruction {index}"
  | .typeMismatch index wanted given =>
      s!"Type mismatch at instruction {index}: expected " ++ wanted.text ++ ", found " ++ given.text
  | .localOutOfRange index slot maxLocals =>
      s!"Local {slot} out of range (max_locals {maxLocals}) at instruction {index}"
  | .tooFewLocals needed maxLocals =>
      s!"Method needs {needed} argument slots but max_locals is {maxLocals}"
  | .stackHeightMismatch index first second =>
      s!"Stack height mismatch at instruction {index}: {first} vs {second}"
  | .incompatibleStack index slot first second =>
      s!"Incompatible stack entry {slot} at instruction {index}: " ++ first.text ++ " vs " ++
        second.text
  | .returnMismatch index result =>
      let wanted := match result with
        | some kind => kind.name
        | none => "void"
      s!"Return at instruction {index} does not match return type " ++ wanted
  | .fallsOffEnd => "Execution falls off the end of the method"
  | .visitLimit => "Visit limit reached"
  | .descriptor cause => "Descriptor error: " ++ cause.message

/-- A descriptor read on behalf of an analysis. -/
def ofDescriptor (result : Except DescriptorError α) : Except AnalyzeError α :=
  result.mapError .descriptor

namespace Frame

/-- Slots of the values in turn, the second slot of a wide value uninitialized. -/
def slotsOf : List FrameValue → List FrameValue
  | [] => []
  | value :: rest => value :: List.replicate (value.size - 1) .uninitialized ++ slotsOf rest

/-- The values a method starts with: the receiver and the parameters. -/
def arguments (owner : String) (method : Method) (type : MethodType) : List FrameValue :=
  (if method.isStatic then [] else [.reference owner]) ++
    type.parameters.filterMap FrameValue.ofType?

/-- The frame a method starts with. -/
def entry (owner : String) (method : Method) : Except AnalyzeError Frame := do
  let type ← ofDescriptor method.type
  let maxLocals := method.maxLocals.toNat
  let needed := method.receiverSlots + type.parameterSlots
  if needed > maxLocals then throw (.tooFewLocals needed maxLocals)
  return {
    locals := slotsOf (arguments owner method type) ++
      List.replicate (maxLocals - needed) .uninitialized
    stack := [] }

/-- Puts a value into a slot. A wide value that reached into the slot is lost. -/
def setLocal (frame : Frame) (index slot : Nat) (value : FrameValue) :
    Except AnalyzeError Frame :=
  if slot + value.size > frame.locals.length then
    .error (.localOutOfRange index slot frame.locals.length)
  else
    let before := slot - 1
    let cut := 0 < slot && (frame.locals[before]?.map FrameValue.size == some 2)
    let cleared := if cut then frame.locals.set before .uninitialized else frame.locals
    let written := cleared.set slot value
    .ok { frame with
      locals := if value.size = 2 then written.set (slot + 1) .uninitialized else written }

/-- Merges stacks of one height, the lowest entry first; an entry may not become uninitialized. -/
def mergeEntries (hierarchy : Hierarchy) (index : Nat) :
    Nat → List FrameValue → List FrameValue → Except AnalyzeError (List FrameValue)
  | slot, mine :: rest, other :: others => do
      let merged := mine.merge hierarchy other
      if merged = .uninitialized then throw (.incompatibleStack index slot mine other)
      return merged :: (← mergeEntries hierarchy index (slot + 1) rest others)
  | _, _, _ => .ok []

/-- The frame that covers both frames at a join. -/
def merge (hierarchy : Hierarchy) (index : Nat) (mine other : Frame) : Except AnalyzeError Frame :=
  if mine.stack.length ≠ other.stack.length then
    .error (.stackHeightMismatch index mine.stack.length other.stack.length)
  else do
    let stack ← mergeEntries hierarchy index 0 mine.stack.reverse other.stack.reverse
    return {
      locals := List.zipWith (FrameValue.merge hierarchy) mine.locals other.locals
      stack := stack.reverse }

end Frame

end StackCoroutine
