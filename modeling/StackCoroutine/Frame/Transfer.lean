import StackCoroutine.Frame.Basic

/-!
The effect of one instruction on a frame. Only the operand stack and the local slots matter; where
control goes next is a matter of the analysis.
-/

namespace StackCoroutine

/-- A change of the frame that may find it unfit. -/
abbrev Transfer := StateT Frame (Except AnalyzeError)

namespace Transfer

def fail (cause : AnalyzeError) : Transfer α := fun _ => .error cause

def lift (result : Except AnalyzeError α) : Transfer α := fun frame =>
  match result with
  | .ok value => .ok (value, frame)
  | .error cause => .error cause

def push (value : FrameValue) : Transfer Unit := fun frame =>
  .ok ((), { frame with stack := value :: frame.stack })

/-- Pushes the value of a declared type, nothing for void. -/
def pushType (type : ValueType) : Transfer Unit :=
  match FrameValue.ofType? type with
  | some value => push value
  | none => pure ()

def pop (index : Nat) : Transfer FrameValue := fun frame =>
  match frame.stack with
  | [] => .error (.stackUnderflow index)
  | value :: rest => .ok (value, { frame with stack := rest })

def popKind (index : Nat) (kind : Kind) : Transfer FrameValue := do
  let value ← pop index
  if value.hasKind kind then return value
  else fail (.typeMismatch index (.kind kind) (.value value))

/-- Pops a value of a declared type, which may not be void. -/
def popType (index : Nat) (type : ValueType) : Transfer Unit := do
  match type.kind with
  | some kind => let _ ← popKind index kind
  | none => fail (.descriptor (.misplacedVoid type.descriptor))

/-- Pops the arguments of a call, the last one first. -/
def popArguments (index : Nat) (types : List ValueType) : Transfer Unit :=
  types.reverse.forM (popType index)

def readLocal (index slot : Nat) : Transfer FrameValue := fun frame =>
  match frame.locals[slot]? with
  | some value => .ok (value, frame)
  | none => .error (.localOutOfRange index slot frame.locals.length)

def writeLocal (index slot : Nat) (value : FrameValue) : Transfer Unit := fun frame =>
  (frame.setLocal index slot value).map fun after => ((), after)

/-- Refuses references where only numbers can be computed with. -/
def numeric (index : Nat) (kind : Kind) : Transfer Unit :=
  if kind = .ref then fail (.typeMismatch index .numeric (.kind kind)) else pure ()

def operandsFor (index : Nat) (kind : Kind) (op : BinaryOp) : Transfer Unit :=
  let fits := match kind with
    | .int | .long => true
    | .float | .double => op.allowsFloat
    | .ref => false
  if fits then pure () else fail (.typeMismatch index (.operands op) (.kind kind))

/-- The value a storage array of that category holds. -/
def elementValue (kind : Kind) : FrameValue := .ofKind kind kind.elementType.internalName

/-- Internal name of what an array of references holds. -/
def elementName : FrameValue → String
  | .reference name =>
      match ValueType.ofInternalName name with
      | .ok (.array element) => if element.isReference then element.internalName else Names.object
      | _ => Names.object
  | _ => Names.object

/-- The frame after an instruction, given the category the method returns. -/
def execute (index : Nat) (result : Option Kind) : Insn → Transfer Unit
  | .label _ | .line _ | .nop | .jump _ => pure ()
  | .constNull => push .null
  | .intConst _ => push .int
  | .longConst _ => push .long
  | .floatConst _ => push .float
  | .doubleConst _ => push .double
  | .textConst _ => push (.reference Names.text)
  | .load kind slot => do
      let value ← readLocal index slot.toNat
      if value.hasKind kind then push value
      else fail (.typeMismatch index (.kind kind) (.value value))
  | .store kind slot => do
      let value ← popKind index kind
      writeLocal index slot.toNat value
  | .increment slot _ => do
      let value ← readLocal index slot.toNat
      if value ≠ .int then fail (.typeMismatch index (.kind .int) (.value value))
  | .pop => do let _ ← pop index
  | .dup => do
      let top ← pop index
      push top
      push top
  | .dupBelow => do
      let top ← pop index
      let second ← pop index
      push top
      push second
      push top
  | .swap => do
      let top ← pop index
      let second ← pop index
      push top
      push second
  | .binary kind op => do
      operandsFor index kind op
      let _ ← popKind index kind
      let value ← popKind index kind
      push value
  | .neg kind => do
      numeric index kind
      let value ← popKind index kind
      push value
  | .convert source target => do
      numeric index source
      let _ ← popKind index source
      numeric index target
      push (elementValue target)
  | .compare kind => do
      numeric index kind
      let _ ← popKind index kind
      let _ ← popKind index kind
      push .int
  | .branch .. | .tableSwitch .. => do let _ ← popKind index .int
  | .branchCompare .. => do
      let _ ← popKind index .int
      let _ ← popKind index .int
  | .branchNull _ | .branchNonNull _ => do let _ ← popKind index .ref
  | .branchSame _ | .branchDifferent _ => do
      let _ ← popKind index .ref
      let _ ← popKind index .ref
  | .new name => push (.reference name)
  | .getField field => do
      let type ← lift (ofDescriptor (ValueType.parse field.descriptor))
      let _ ← popKind index .ref
      pushType type
  | .putField field => do
      let type ← lift (ofDescriptor (ValueType.parse field.descriptor))
      popType index type
      let _ ← popKind index .ref
  | .getStatic field => do
      let type ← lift (ofDescriptor (ValueType.parse field.descriptor))
      pushType type
  | .putStatic field => do
      let type ← lift (ofDescriptor (ValueType.parse field.descriptor))
      popType index type
  | .checkCast name => do
      let _ ← lift (ofDescriptor (ValueType.ofInternalName name))
      let _ ← popKind index .ref
      push (.reference name)
  | .instanceOf name => do
      let _ ← lift (ofDescriptor (ValueType.ofInternalName name))
      let _ ← popKind index .ref
      push .int
  | .newArray element => do
      let _ ← popKind index .int
      push (.reference (ValueType.array element).internalName)
  | .arrayLength => do
      let _ ← popKind index .ref
      push .int
  | .arrayLoad kind => do
      let _ ← popKind index .int
      let array ← popKind index .ref
      push (if kind = .ref then .reference (elementName array) else elementValue kind)
  | .arrayStore kind => do
      let _ ← popKind index kind
      let _ ← popKind index .int
      let _ ← popKind index .ref
  | .invoke dispatch method => do
      let type ← lift (ofDescriptor method.type)
      popArguments index type.parameters
      if dispatch.hasReceiver then
        let _ ← popKind index .ref
      pushType type.result
  | .invokeDynamic _ descriptor => do
      let type ← lift (ofDescriptor (MethodType.parse descriptor))
      popArguments index type.parameters
      pushType type.result
  | .return kind => do
      if kind ≠ result then fail (.returnMismatch index result)
      match kind with
      | some kind => let _ ← popKind index kind
      | none => pure ()
  | .throw | .monitorEnter | .monitorExit => do let _ ← popKind index .ref

end Transfer

end StackCoroutine
