import StackCoroutine.Machine.World

/-!
What the methods of the machine do. The first argument of an instance method is its receiver.
-/

namespace StackCoroutine

namespace Heap

/-- Text of a value as printed: the content of a text, class and number of another object. -/
def display (heap : Heap) : Value → Except TypeFault String
  | .ref object => do
      match ← heap.get object with
      | .text content => return content
      | other => return other.className ++ "@" ++ toString object.index.toNat
  | value => .ok value.text

/-- The message of a throwable, null if it has none. -/
def messageOf (heap : Heap) (object : ObjectRef) : Except TypeFault Value := do
  match ← heap.get object with
  | .instance _ fields => return (fields.get? Exec.messageField).getD .null
  | _ => return .null

def savedFrame (heap : Heap) (object : ObjectRef) : Except TypeFault (SavedFrame Value) := do
  match ← heap.get object with
  | .savedFrame frame _ => return frame
  | other => throw (.notSavedFrame other.className)

/-- Place of a saved frame that has been handed out. -/
def framePosition (heap : Heap) (object : ObjectRef) : Except TypeFault Nat := do
  match ← heap.get object with
  | .savedFrame _ (some position) => return position
  | _ => throw .neverLoaded

def lockState (heap : Heap) (object : ObjectRef) : Except TypeFault (LockState Value) := do
  match ← heap.get object with
  | .lockState state => return state
  | other => throw (.notLockState other.className)

def setLockState (heap : Heap) (object : ObjectRef) (state : LockState Value) : Heap :=
  heap.update object fun _ => .lockState state

/-- Sets a field of an instance. -/
def setField (heap : Heap) (object : ObjectRef) (name : String) (value : Value) : Heap :=
  heap.update object fun
    | .instance className fields => .instance className (fields.insert name value)
    | other => other

end Heap

namespace Native

open Exec

def argument (native : Native) (arguments : List Value) (index : Nat) : Exec Value :=
  match arguments[index]? with
  | some value => pure value
  | none => fail (.type (.missingArgument native.name index))

/-- The context of the running coroutine is meant. -/
def expectContext (value : Value) : Exec Unit :=
  match value with
  | .context => pure ()
  | other => fail (.type (.notContext other))

/-- Null stands for the absence of a value. -/
def present (value : Value) : Option Value := if value.isNull then none else some value

def loadNextFrame : Exec Value := do
  let ((position, frame), next) ← ofProtocol (← context).loadNext
  setContext next
  let object ← changing fun heap => heap.alloc (.savedFrame frame (some position))
  return .ref object

def initSavedFrame (native : Native) (arguments : List Value) : Exec Unit := do
  let target ← nonNull (← native.argument arguments 0) "MethodState.<init>"
  let className ← match ← ofType (← native.argument arguments 1).asObject with
    | some object => reading fun heap => heap.text object
    | none => raise Names.nullPointer "method state class is null"
  let lockState ← native.argument arguments 5
  let methodId ← ofType (← native.argument arguments 2).asInt
  let point ← ofType (← native.argument arguments 3).asInt
  let data ← native.argument arguments 4
  let frame := .savedFrame ⟨className, methodId, point, data, present lockState⟩ none
  let heap ← reading fun heap => heap.replace target frame
  changeHeap fun _ => heap

def initThrowable (native : Native) (arguments : List Value) : Exec Unit := do
  let target ← nonNull (← native.argument arguments 0) "Throwable.<init>"
  let message ← match native with
    | .throwableInitMessage => native.argument arguments 1
    | _ => pure .null
  match ← reading fun heap => heap.get target with
  | .instance .. => changeHeap fun heap => heap.setField target messageField message
  | other => fail (.type (.notThrowable other.className))

def releaseLock (native : Native) (arguments : List Value) : Exec Unit := do
  let target ← nonNull (← native.argument arguments 0) "LockState.exit"
  let monitor ← native.argument arguments 1
  let state ← reading fun heap => heap.lockState target
  match state.exit Value.isSameMonitor monitor with
  | .ok left => changeHeap fun heap => heap.setLockState target left
  | .error .monitorNotHeld =>
      raise Names.illegalMonitorState "monitor is not recorded in the lock state"
  | .error cause => fail (.protocol cause)

def equalTexts (native : Native) (arguments : List Value) : Exec Bool := do
  let target ← nonNull (← native.argument arguments 0) "equals"
  match ← native.argument arguments 1 with
  | .ref other =>
      match ← reading fun heap => heap.get other with
      | .text content => return (← reading fun heap => heap.text target) == content
      | _ => return false
  | _ => return false

/-- Runs a method of the machine. -/
def call (native : Native) (arguments : List Value) : Exec (Option Value) := do
  let argument := native.argument arguments
  match native with
  | .suspend => do
      expectContext (← argument 0)
      raise Names.illegalState "suspend() reached from a method that was not instrumented"
  | .getMode => do
      expectContext (← argument 0)
      return some (.int (← context).mode.code)
  | .setMode => do
      expectContext (← argument 0)
      let code ← ofType (← argument 1).asInt
      setContext (← ofProtocol ((← context).setModeCode code))
      return none
  | .loadNext => do
      expectContext (← argument 0)
      return some (← loadNextFrame)
  | .unloadCurrent => do
      expectContext (← argument 0)
      let (_, next) ← ofProtocol (← context).unloadCurrent
      setContext next
      return none
  | .unloadToBefore => do
      expectContext (← argument 0)
      let object ← nonNull (← argument 1) "unloadMethodStateToBefore"
      let position ← reading fun heap => heap.framePosition object
      setContext (← ofProtocol ((← context).unloadToBefore position))
      return none
  | .pushNew => do
      expectContext (← argument 0)
      let object ← nonNull (← argument 1) "pushNewMethodState"
      let frame ← reading fun heap => heap.savedFrame object
      setContext ((← context).push frame)
      return none
  | .getPayload => do
      expectContext (← argument 0)
      return some ((← context).payload.getD .null)
  | .setPayload => do
      expectContext (← argument 0)
      let value ← argument 1
      setContext { ← context with payload := present value }
      return none
  | .getArgumentCount => do
      expectContext (← argument 0)
      let count ← ofProtocol (← context).argumentCount
      return some (.int (Int32.ofNat count))
  | .getArgument => do
      expectContext (← argument 0)
      let index ← ofType (← argument 1).asInt
      if index < 0 then fail (.type (.negativeArgument index))
      return some (← ofProtocol ((← context).argument index.toInt.toNat))
  | .savedFrameInit => do
      native.initSavedFrame arguments
      return none
  | .getPoint => do
      let object ← nonNull (← argument 0) "getContinuationPoint"
      return some (.int (← reading fun heap => heap.savedFrame object).point)
  | .getData => do
      let object ← nonNull (← argument 0) "getData"
      return some (← reading fun heap => heap.savedFrame object).data
  | .getLockState => do
      let object ← nonNull (← argument 0) "getLockState"
      return some ((← reading fun heap => heap.savedFrame object).lockState.getD .null)
  | .lockStateInit => do
      let target ← nonNull (← argument 0) "LockState.<init>"
      let heap ← reading fun heap => heap.replace target (.lockState .empty)
      changeHeap fun _ => heap
      return none
  | .lockStateEnter => do
      let target ← nonNull (← argument 0) "LockState.enter"
      let monitor ← argument 1
      let state ← reading fun heap => heap.lockState target
      changeHeap fun heap => heap.setLockState target (state.enter monitor)
      return none
  | .lockStateExit => do
      native.releaseLock arguments
      return none
  | .lockStateToArray => do
      let target ← nonNull (← argument 0) "LockState.toArray"
      let state ← reading fun heap => heap.lockState target
      let array ← changing fun heap =>
        heap.alloc (.array (.object Names.object) state.monitors.toArray)
      return some (.ref array)
  | .printLine => do
      let value ← argument 0
      let line ← reading fun heap => heap.display value
      modify fun world => { world with output := line :: world.output }
      return none
  | .objectInit => return none
  | .throwableInit | .throwableInitMessage => do
      native.initThrowable arguments
      return none
  | .getMessage => do
      let object ← nonNull (← argument 0) "getMessage"
      return some (← reading fun heap => heap.messageOf object)
  | .valueOf _ => do
      let value ← argument 0
      let text ← reading fun heap => heap.display value
      return some (← changing fun heap => heap.newText text)
  | .concat => do
      let first ← nonNull (← argument 0) "concat"
      let second ← nonNull (← argument 1) "concat"
      let front ← reading fun heap => heap.text first
      let back ← reading fun heap => heap.text second
      return some (← changing fun heap => heap.newText (front ++ back))
  | .length => do
      let object ← nonNull (← argument 0) "length"
      let text ← reading fun heap => heap.text object
      return some (.int (Int32.ofNat text.length))
  | .textEquals => do
      let equal ← native.equalTexts arguments
      return some (.int (if equal then 1 else 0))

end Native

end StackCoroutine
