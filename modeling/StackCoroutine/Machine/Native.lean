import StackCoroutine.Coroutine.Protocol
import StackCoroutine.Code.Form

/-!
Methods the machine itself provides: the protocol of coroutines, output, throwables and texts.
-/

namespace StackCoroutine

inductive Native where
  | suspend
  | getMode
  | setMode
  | loadNext
  | unloadCurrent
  | unloadToBefore
  | pushNew
  | getPayload
  | setPayload
  | getArgumentCount
  | getArgument
  | savedFrameInit
  | getPoint
  | getData
  | getLockState
  | lockStateInit
  | lockStateEnter
  | lockStateExit
  | lockStateToArray
  | printLine
  | objectInit
  | throwableInit
  | throwableInitMessage
  | getMessage
  | valueOf (kind : Kind)
  | concat
  | length
  | textEquals
  deriving DecidableEq, Repr, Inhabited

namespace Native

def name : Native → String
  | .suspend => "Suspend"
  | .getMode => "GetMode"
  | .setMode => "SetMode"
  | .loadNext => "LoadNextMethodState"
  | .unloadCurrent => "UnloadCurrentMethodState"
  | .unloadToBefore => "UnloadMethodStateToBefore"
  | .pushNew => "PushNewMethodState"
  | .getPayload => "GetContext"
  | .setPayload => "SetContext"
  | .getArgumentCount => "GetArgumentCount"
  | .getArgument => "GetArgument"
  | .savedFrameInit => "MethodStateInit"
  | .getPoint => "GetContinuationPoint"
  | .getData => "GetData"
  | .getLockState => "GetLockState"
  | .lockStateInit => "LockStateInit"
  | .lockStateEnter => "LockStateEnter"
  | .lockStateExit => "LockStateExit"
  | .lockStateToArray => "LockStateToArray"
  | .printLine => "Println"
  | .objectInit => "ObjectInit"
  | .throwableInit => "ThrowableInit"
  | .throwableInitMessage => "ThrowableInitMessage"
  | .getMessage => "GetMessage"
  | .valueOf kind => "ValueOf(" ++ kind.formName ++ ")"
  | .concat => "Concat"
  | .length => "Length"
  | .textEquals => "StringEquals"

def bindings : List (MethodRef × Native) :=
  [(Protocol.suspend, .suspend), (Protocol.getMode, .getMode), (Protocol.setMode, .setMode),
    (Protocol.loadNext, .loadNext), (Protocol.unloadCurrent, .unloadCurrent),
    (Protocol.unloadToBefore, .unloadToBefore), (Protocol.pushNew, .pushNew),
    (Protocol.getPayload, .getPayload), (Protocol.setPayload, .setPayload),
    (Protocol.getArgumentCount, .getArgumentCount), (Protocol.getArgument, .getArgument),
    (Protocol.savedFrameInit, .savedFrameInit), (Protocol.getPoint, .getPoint),
    (Protocol.getData, .getData), (Protocol.getLockState, .getLockState),
    (Protocol.lockStateInit, .lockStateInit), (Protocol.lockStateEnter, .lockStateEnter),
    (Protocol.lockStateExit, .lockStateExit), (Protocol.lockStateToArray, .lockStateToArray),
    (Protocol.printLine, .printLine),
    (⟨Names.object, Names.constructor, "()V"⟩, .objectInit),
    (⟨Names.throwable, Names.constructor, "()V"⟩, .throwableInit),
    (⟨Names.throwable, Names.constructor, "(Lstd/String;)V"⟩, .throwableInitMessage),
    (⟨Names.throwable, "getMessage", "()Lstd/String;"⟩, .getMessage),
    (⟨Names.text, "valueOf", "(I)Lstd/String;"⟩, .valueOf .int),
    (⟨Names.text, "valueOf", "(J)Lstd/String;"⟩, .valueOf .long),
    (⟨Names.text, "valueOf", "(F)Lstd/String;"⟩, .valueOf .float),
    (⟨Names.text, "valueOf", "(D)Lstd/String;"⟩, .valueOf .double),
    (⟨Names.text, "valueOf", "(Lstd/Object;)Lstd/String;"⟩, .valueOf .ref),
    (⟨Names.text, "concat", "(Lstd/String;)Lstd/String;"⟩, .concat),
    (⟨Names.text, "length", "()I"⟩, .length),
    (⟨Names.text, "equals", "(Lstd/Object;)Z"⟩, .textEquals)]

/-- The method of exactly this class. -/
def find? (method : MethodRef) : Option Native := bindings.lookup method

end Native

end StackCoroutine
