import StackCoroutine.Class.Encoding
import StackCoroutine.Frame.Transfer

/-!
Frame analysis: the frame before every instruction that can be reached. Instructions wait in a
queue; each one passes its frame on to the handlers that cover it, to its branch targets and to the
next instruction, where it is merged with the frame found so far. An instruction waits again when
its frame has changed.
-/

namespace StackCoroutine

structure Analysis where
  /-- The frame before each instruction, none where control never comes. -/
  frames : Array (Option Frame)
  /-- Entries of the highest operand stack. -/
  maxStack : Nat
  deriving DecidableEq, Repr, Inhabited

namespace Analysis

def frame? (analysis : Analysis) (index : Nat) : Option Frame := (analysis.frames[index]?).bind id

/-- A try block by instruction indices. -/
structure Handler where
  start : Nat
  stop : Nat
  target : Nat
  caught : String
  deriving DecidableEq, Repr

def Handler.covers (handler : Handler) (index : Nat) : Bool :=
  handler.start ≤ index && index < handler.stop

def labelTable (code : List Insn) : Except AnalyzeError LabelTable :=
  (LabelTable.ofCode code).mapError .duplicateLabel

def resolve (labels : LabelTable) (label : Label) : Except AnalyzeError Nat :=
  match labels.find? label with
  | some index => .ok index
  | none => .error (.undefinedLabel label)

def resolveHandler (labels : LabelTable) (block : TryBlock) : Except AnalyzeError Handler := do
  let start ← resolve labels block.start
  let stop ← resolve labels block.stop
  if stop ≤ start then throw (.invalidTryRange block.start block.stop)
  let target ← resolve labels block.handler
  return ⟨start, stop, target, block.caught.getD Names.throwable⟩

/-- What stays the same while a method is analysed. -/
structure Setting where
  hierarchy : Hierarchy
  code : Array Insn
  labels : LabelTable
  handlers : List Handler
  result : Option Kind

/-- What is known so far, and the instructions that wait for a visit. -/
structure Progress where
  known : Analysis
  waiting : List Nat

/-- Where control goes from an instruction, with the frame it arrives with. -/
def successors (setting : Setting) (index : Nat) (insn : Insn) (before after : Frame) :
    Except AnalyzeError (List (Nat × Frame)) := do
  let caught := (setting.handlers.filter fun handler => handler.covers index).map fun handler =>
    (handler.target, { before with stack := [.reference handler.caught] })
  let branched ← insn.targets.mapM fun label => do
    return (← resolve setting.labels label, after)
  if insn.isTerminator then return caught ++ branched
  else if index + 1 < setting.code.size then return caught ++ branched ++ [(index + 1, after)]
  else throw .fallsOffEnd

/-- Makes a frame the known one of an instruction, which waits if that is a change, and takes note of
the height of a stack. -/
def record (progress : Progress) (index : Nat) (frame : Frame) (height : Nat) : Progress :=
  let maxStack := max progress.known.maxStack height
  if progress.known.frame? index = some frame then
    { progress with known := { progress.known with maxStack } }
  else {
    known := { frames := progress.known.frames.setIfInBounds index (some frame), maxStack }
    waiting :=
      if progress.waiting.contains index then progress.waiting else progress.waiting ++ [index] }

/-- Takes note of a frame that arrives at an instruction. -/
def arrive (hierarchy : Hierarchy) (progress : Progress) (index : Nat) (frame : Frame) :
    Except AnalyzeError Progress := do
  let merged ← match progress.known.frame? index with
    | some mine => mine.merge hierarchy index frame
    | none => .ok frame
  return record progress index merged frame.stack.length

/-- Passes the frame of an instruction on. -/
def visit (setting : Setting) (progress : Progress) (index : Nat) : Except AnalyzeError Progress :=
  match setting.code[index]?, progress.known.frame? index with
  | some insn, some before => do
      let ((), after) ← (Transfer.execute index setting.result insn).run before
      let next ← successors setting index insn before after
      let known := { progress.known with
        maxStack := max progress.known.maxStack after.stack.length }
      next.foldlM (fun progress (target, frame) => arrive setting.hierarchy progress target frame)
        { progress with known }
  | _, _ => .ok progress

/-- Visits the first waiting instruction as long as one waits, the given number of times at most. -/
def iterate (setting : Setting) : Nat → Progress → Except AnalyzeError Analysis
  | 0, progress => if progress.waiting.isEmpty then .ok progress.known else .error .visitLimit
  | bound + 1, progress =>
      match progress.waiting with
      | [] => .ok progress.known
      | index :: rest => do
          iterate setting bound (← visit setting { progress with waiting := rest } index)

/-- The name and, if it is that of an array, the names of what lies in it. -/
def nameLayers : Nat → String → List String
  | 0, name => [name]
  | depth + 1, name =>
      if name.startsWith "[" then name :: nameLayers depth (Transfer.elementName (.reference name))
      else [name]

/-- The name under which values of a type stand in frames. -/
def typeNames (type : ValueType) : List String :=
  if type.isReference then [type.internalName] else []

/-- The names that an instruction brings into a frame. -/
def insnNames : Insn → List String
  | .textConst _ => [Names.text]
  | .new name | .checkCast name => [name]
  | .newArray element => [(ValueType.array element).internalName]
  | .getField field | .getStatic field =>
      (ValueType.parse field.descriptor).toOption.toList.flatMap typeNames
  | .invoke _ method => method.type.toOption.toList.flatMap fun type => typeNames type.result
  | .invokeDynamic _ descriptor =>
      (MethodType.parse descriptor).toOption.toList.flatMap fun type => typeNames type.result
  | _ => []

/-- The names that frames of a method can start with or take over from its code. -/
def givenNames (owner : String) (method : Method) : List String :=
  [owner, Names.object] ++
    method.type.toOption.toList.flatMap (fun type => type.parameters.flatMap typeNames) ++
    method.tryBlocks.map (fun block => block.caught.getD Names.throwable) ++
    method.code.flatMap insnNames

/-- All names that can come to stand in a frame of a method. -/
def possibleNames (hierarchy : Hierarchy) (owner : String) (method : Method) : List String :=
  (givenNames owner method ++ hierarchy.entries.filterMap fun entry => entry.2.superName).flatMap
    fun name => nameLayers name.length name

/-- The frames of a method cannot change more often: every value of every frame only moves upward,
through names that can occur. -/
def visitBound (hierarchy : Hierarchy) (owner : String) (method : Method) : Nat :=
  let length := method.code.length
  let ranks := (possibleNames hierarchy owner method).length + 2
  1 + length * ((method.maxLocals.toNat + length) * ranks + 1)

def analyze (hierarchy : Hierarchy) (owner : String) (method : Method) :
    Except AnalyzeError Analysis := do
  let labels ← labelTable method.code
  let handlers ← method.tryBlocks.mapM (resolveHandler labels)
  let result ← ofDescriptor method.resultType
  if method.code.isEmpty then throw .fallsOffEnd
  let entry ← Frame.entry owner method
  let frames := (Array.replicate method.code.length none).setIfInBounds 0 (some entry)
  iterate ⟨hierarchy, method.code.toArray, labels, handlers, result.kind⟩
    (visitBound hierarchy owner method) ⟨⟨frames, 0⟩, [0]⟩

end Analysis

end StackCoroutine
