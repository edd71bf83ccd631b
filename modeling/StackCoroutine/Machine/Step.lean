import StackCoroutine.Machine.Arithmetic
import StackCoroutine.Machine.NativeCall

/-!
Execution. A run is a stack of activations, innermost first, over a world; one step executes one
instruction, enters or leaves a method, or passes an exception to a handler or to the caller. At
most `callLimit` activations are in progress at a time.
-/

namespace StackCoroutine

/-- One invocation of a method. -/
structure Activation where
  method : PreparedMethod
  /-- Index of the instruction to execute. -/
  index : Nat
  locals : List Value
  /-- Top first. -/
  stack : List Value
  deriving Repr

namespace Activation

/-- Puts values into the slots from the given one on, each taking as many as its size. -/
def placeArguments (fault : MachineError) (slot : Nat) (locals : List Value) :
    List (Value × Nat) → Except MachineError (List Value)
  | [] => .ok locals
  | (value, size) :: rest =>
      if slot < locals.length then
        placeArguments fault (slot + size) (locals.set slot value) rest
      else .error fault

/-- The start of an invocation: receiver and arguments in their slots, null in all others. -/
def enter (method : PreparedMethod) (arguments : List Value) : Except MachineError Activation := do
  let receiver := method.method.receiverSlots
  let wanted := method.parameters.length + receiver
  if arguments.length ≠ wanted then
    throw (.type (.argumentCount method.displayName wanted arguments.length))
  let sizes := List.replicate receiver 1 ++ method.parameters.map ValueType.size
  let locals ← placeArguments (.type (.tooFewLocals method.displayName)) 0
    (List.replicate method.method.maxLocals.toNat .null) (arguments.zip sizes)
  return ⟨method, 0, locals, []⟩

end Activation

/-- Where an invocation goes on after an instruction. -/
inductive Flow where
  | next
  | jump (index : Nat)
  | return (value : Option Value)
  | call (method : PreparedMethod) (arguments : List Value)
  deriving Repr

/-- Execution of an instruction within its invocation. -/
abbrev Execution := StateT Activation Exec

namespace Execution

open Exec

def push (value : Value) : Execution Unit :=
  modify fun activation => { activation with stack := value :: activation.stack }

def pop : Execution Value := do
  let activation ← get
  match activation.stack with
  | [] => fail .stackUnderflow
  | value :: rest =>
      set { activation with stack := rest }
      return value

def popKind (kind : Kind) : Execution Value := do ofType ((← pop).expectKind kind)

def popInt : Execution Int32 := do ofType (← pop).asInt

/-- Pops an object, an exception for null. -/
def popObject (action : String) : Execution ObjectRef := do nonNull (← pop) action

def popMonitor (action : String) : Execution Monitor := do
  let value ← pop
  if value.isNull then raise Names.nullPointer (action ++ " on null")
  match Monitor.ofValue? value with
  | some monitor => return monitor
  | none => fail (.type (.cannotLock value))

/-- Pops the given number of values, the lowest first in the result. -/
def popMany (count : Nat) : Execution (List Value) := do
  let activation ← get
  match Decoder.splitFront? count activation.stack with
  | none => fail .stackUnderflow
  | some (front, rest) =>
      set { activation with stack := rest }
      return front.reverse

def readLocal (slot : UInt16) : Execution Value := do
  match (← get).locals[slot.toNat]? with
  | some value => return value
  | none => fail (.type (.localOutOfRange slot))

def writeLocal (slot : UInt16) (value : Value) : Execution Unit := do
  let activation ← get
  if slot.toNat < activation.locals.length then
    set { activation with locals := activation.locals.set slot.toNat value }
  else fail (.type (.localOutOfRange slot))

def jumpTo (label : Label) : Execution Flow := do
  return .jump (← ofMachine ((← get).method.position label))

def branchIf (holds : Bool) (label : Label) : Execution Flow :=
  if holds then jumpTo label else return .next

/-- Class of a reference that is not null. -/
def classOf (value : Value) : Exec String :=
  match value with
  | .ref object => reading fun heap => heap.className object
  | .context => pure Protocol.contextClass
  | other => fail (.type (.mismatch "reference" other))

def isInstance (classes : ClassTable) (value : Value) (target : String) : Exec Bool := do
  return classes.hierarchy.isAssignable target (← classOf value)

/-- The fields of a new instance with their initial values; those of subclasses come first. -/
def initialFields (classes : ClassTable) (className : String) : Except MachineError Slots :=
  let declared := (classes.ancestry className).flatMap fun ancestor =>
    match classes.find? ancestor with
    | some loaded => loaded.file.fields.filter fun field => !field.isStatic
    | none => []
  declared.foldlM (fun slots field => do
    let type ← (ValueType.parse field.descriptor).mapError .descriptor
    return slots.insertNew field.name (Value.ofType type)) []

def fieldText (field : FieldRef) : String := field.owner ++ "." ++ field.name

/-- The name a static field is kept under: that of the class that declares it. -/
def staticName (classes : ClassTable) (field : FieldRef) : Exec String :=
  match classes.fieldOwner? field.owner field.name with
  | some (owner, _) => pure (owner ++ "." ++ field.name)
  | none => fail (.noSuchField (fieldText field))

/-- The place of an element, an exception if the array has none there. -/
def elementIndex (array : ObjectRef) (index : Int32) : Exec Nat := do
  let length := (← reading fun heap => heap.array array).size
  if 0 ≤ index ∧ index.toInt.toNat < length then return index.toInt.toNat
  else
    let place := "Index " ++ toString index.toInt
    raise Names.indexOutOfBounds (place ++ s!" out of bounds for length {length}")

/-- The class in which the search for the target of a call begins. -/
def dispatchStart (dispatch : Dispatch) (method : MethodRef) (arguments : List Value) :
    Exec String :=
  match dispatch, arguments with
  | .static, _ => pure method.owner
  | _, .null :: _ => raise Names.nullPointer ("invoking " ++ method.text ++ " on null")
  | .special, _ => pure method.owner
  | _, receiver :: _ => classOf receiver
  | _, [] => pure method.owner

def invoke (classes : ClassTable) (dispatch : Dispatch) (method : MethodRef) : Execution Flow := do
  let type ← ofMachine (method.type.mapError .descriptor)
  let receiver := if dispatch.hasReceiver then 1 else 0
  let arguments ← popMany (type.parameters.length + receiver)
  let start ← dispatchStart dispatch method arguments
  match classes.resolve? start method.name method.descriptor with
  | some (.code target) => return .call target arguments
  | some (.native native) =>
      match ← native.call arguments with
      | some value => push value
      | none => pure ()
      return .next
  | none => fail (.noSuchMethod method.text)

/-- The target of a key, the default if the table has none. -/
def switchTarget (low : Int32) (default : Label) (targets : List Label) (key : Int32) : Label :=
  let offset := key.toInt - low.toInt
  if 0 ≤ offset ∧ offset < 0x80000000 then (targets[offset.toNat]?).getD default else default

/-- Executes one instruction. -/
def execute (classes : ClassTable) (insn : Insn) : Execution Flow := do
  match insn with
  | .label _ | .line _ | .nop => return .next
  | .constNull => push .null; return .next
  | .intConst value => push (.int value); return .next
  | .longConst value => push (.long value); return .next
  | .floatConst value => push (.float value); return .next
  | .doubleConst value => push (.double value); return .next
  | .textConst value => do
      let object ← changing fun heap => heap.intern value
      push (.ref object)
      return .next
  | .load kind slot => do
      let value ← ofType ((← readLocal slot).expectKind kind)
      push value
      return .next
  | .store kind slot => do
      writeLocal slot (← popKind kind)
      return .next
  | .increment slot amount => do
      let value ← ofType (← readLocal slot).asInt
      writeLocal slot (.int (value + amount))
      return .next
  | .pop => do
      let _ ← pop
      return .next
  | .dup => do
      let top ← pop
      push top
      push top
      return .next
  | .dupBelow => do
      let top ← pop
      let second ← pop
      push top
      push second
      push top
      return .next
  | .swap => do
      let top ← pop
      let second ← pop
      push top
      push second
      return .next
  | .binary kind op => do
      let b ← popKind kind
      let a ← popKind kind
      match ← ofType (Arithmetic.binary? kind op a b) with
      | some value => push value
      | none => raise Names.arithmetic "/ by zero"
      return .next
  | .neg kind => do
      push (← ofType (Arithmetic.negate (← popKind kind)))
      return .next
  | .convert source target => do
      push (← ofType (Arithmetic.convert (← popKind source) target))
      return .next
  | .compare kind => do
      let b ← popKind kind
      let a ← popKind kind
      push (.int (← ofType (Arithmetic.compare a b)))
      return .next
  | .jump target => jumpTo target
  | .branch condition target => do
      branchIf (condition.holds (← popInt) 0) target
  | .branchCompare condition target => do
      let b ← popInt
      let a ← popInt
      branchIf (condition.holds a b) target
  | .branchNull target => do
      branchIf (← popKind .ref).isNull target
  | .branchNonNull target => do
      branchIf (!(← popKind .ref).isNull) target
  | .branchSame target => do
      let b ← popKind .ref
      let a ← popKind .ref
      branchIf (a = b) target
  | .branchDifferent target => do
      let b ← popKind .ref
      let a ← popKind .ref
      branchIf (a ≠ b) target
  | .tableSwitch low default targets => do
      jumpTo (switchTarget low default targets (← popInt))
  | .new className => do
      if !classes.isKnown className then fail (.classNotFound className)
      let fields ← ofMachine (initialFields classes className)
      let object ← changing fun heap => heap.alloc (.instance className fields)
      push (.ref object)
      return .next
  | .getField field => do
      let receiver ← popObject ("read of field " ++ field.name)
      let found := match ← reading fun heap => heap.get receiver with
        | .instance _ fields => fields.get? field.name
        | _ => none
      match found with
      | some value => push value
      | none => fail (.noSuchField (fieldText field))
      return .next
  | .putField field => do
      let value ← pop
      let receiver ← popObject ("write of field " ++ field.name)
      let declared := match ← reading fun heap => heap.get receiver with
        | .instance _ fields => fields.contains field.name
        | _ => false
      if !declared then fail (.noSuchField (fieldText field))
      changeHeap fun heap => heap.setField receiver field.name value
      return .next
  | .getStatic field => do
      let name ← staticName classes field
      push (((← getThe World).statics.get? name).getD .null)
      return .next
  | .putStatic field => do
      let name ← staticName classes field
      let value ← pop
      modifyThe World fun world => { world with statics := world.statics.insert name value }
      return .next
  | .checkCast name => do
      let value ← pop
      if !value.isNull then
        if !(← isInstance classes value name) then
          let className ← classOf value
          raise Names.classCast (className ++ " cannot be cast to " ++ name)
      push value
      return .next
  | .instanceOf name => do
      let value ← pop
      let result ← if value.isNull then pure false else isInstance classes value name
      push (.int (if result then 1 else 0))
      return .next
  | .newArray element => do
      let length ← popInt
      if length < 0 then
        raise Names.indexOutOfBounds ("negative array size " ++ toString length.toInt)
      let object ← changing fun heap => heap.newArray element length.toInt.toNat
      push (.ref object)
      return .next
  | .arrayLength => do
      let array ← popObject "array length"
      let values ← reading fun heap => heap.array array
      push (.int (Int32.ofNat values.size))
      return .next
  | .arrayLoad kind => do
      let index ← popInt
      let array ← popObject "array load"
      let place ← elementIndex array index
      let values ← reading fun heap => heap.array array
      push (← ofType ((values.getD place .null).expectKind kind))
      return .next
  | .arrayStore kind => do
      let value ← popKind kind
      let index ← popInt
      let array ← popObject "array store"
      let place ← elementIndex array index
      changeHeap fun heap => heap.setElement array place value
      return .next
  | .invoke dispatch method => invoke classes dispatch method
  | .invokeDynamic name descriptor =>
      fail (.unsupported ("dynamic call site " ++ name ++ descriptor))
  | .return none => return .return none
  | .return (some kind) => return .return (some (← popKind kind))
  | .throw => do
      let exception ← popObject "throw"
      throw (Abort.thrown exception)
  | .monitorEnter => do
      let monitor ← popMonitor "monitor enter"
      modifyThe World fun world => { world with monitors := world.monitors.enter monitor }
      return .next
  | .monitorExit => do
      let monitor ← popMonitor "monitor exit"
      match (← getThe World).monitors.exit? monitor with
      | some left => modifyThe World fun world => { world with monitors := left }
      | none => raise Names.illegalMonitorState "monitor is not held"
      return .next

end Execution

/-- How a run ends. -/
inductive Outcome where
  | returned (value : Option Value)
  /-- An exception no activation handles. -/
  | thrown (exception : ObjectRef)
  | failed (cause : MachineError)
  deriving DecidableEq, Repr

namespace Machine

/-- Invocations in progress at most. -/
def callLimit : Nat := 200

/-- Activations, innermost first, or the end of the run. -/
inductive Progress where
  | running (activations : List Activation)
  | done (outcome : Outcome)
  deriving Repr

/-- Enters a method above the given activations. -/
def enter (method : PreparedMethod) (arguments : List Value) (callers : List Activation) :
    Progress :=
  if callLimit ≤ callers.length then .done (.failed .stackOverflow)
  else match Activation.enter method arguments with
    | .ok activation => .running (activation :: callers)
    | .error cause => .done (.failed cause)

/-- Hands a result to the caller, whose call is complete. -/
def leave (value : Option Value) : List Activation → Progress
  | [] => .done (.returned value)
  | caller :: rest =>
      .running ({ caller with
        index := caller.index + 1
        stack := value.toList ++ caller.stack } :: rest)

/-- The handler of an invocation for an exception of the given class. -/
def handler? (classes : ClassTable) (activation : Activation) (className : String) :
    Option Nat :=
  let applies (range : CatchRange) : Bool :=
    range.covers activation.index && match range.caught with
      | none => true
      | some caught => classes.hierarchy.isAssignable caught className
  (activation.method.handlers.find? applies).map CatchRange.target

/-- Unwinds to the innermost activation that handles the exception. -/
def unwind (classes : ClassTable) (heap : Heap) (exception : ObjectRef) :
    List Activation → Progress
  | [] => .done (.thrown exception)
  | activation :: callers =>
      match heap.className exception with
      | .error fault => .done (.failed (.type fault))
      | .ok className =>
          match handler? classes activation className with
          | some target =>
              .running ({ activation with index := target, stack := [.ref exception] } :: callers)
          | none => unwind classes heap exception callers

/-- One step of a run. -/
def step (classes : ClassTable) (activations : List Activation) (world : World) :
    Progress × World :=
  match activations with
  | [] => (.done (.returned none), world)
  | activation :: callers =>
      match activation.method.code[activation.index]? with
      | none =>
          (.done (.failed (.type (.fellOffEnd activation.method.displayName))), world)
      | some insn =>
          match ((Execution.execute classes insn).run activation).run world with
          | (.ok (.next, after), world) =>
              (.running ({ after with index := activation.index + 1 } :: callers), world)
          | (.ok (.jump target, after), world) =>
              (.running ({ after with index := target } :: callers), world)
          | (.ok (.return value, _), world) => (leave value callers, world)
          | (.ok (.call method arguments, after), world) =>
              (enter method arguments (after :: callers), world)
          | (.error (.thrown exception), world) =>
              (unwind classes world.heap exception (activation :: callers), world)
          | (.error (.error cause), world) => (.done (.failed cause), world)

/-- Runs to the end, or for as many steps as the limit allows. -/
def run (classes : ClassTable) : Nat → Progress → World → Outcome × World
  | _, .done outcome, world => (outcome, world)
  | 0, .running _, world => (.failed .stepLimit, world)
  | limit + 1, .running activations, world =>
      let (progress, world) := step classes activations world
      run classes limit progress world

end Machine

end StackCoroutine
