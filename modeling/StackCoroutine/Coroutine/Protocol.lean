import StackCoroutine.Code.Insn

/-!
The classes and methods through which generated code talks to its host, and the names of the fields
that mark instrumented classes.
-/

namespace StackCoroutine.Protocol

def contextClass : String := "resumable/SuspendableContext"
def savedFrameClass : String := "resumable/MethodState"
def lockStateClass : String := "resumable/LockState"
def outputClass : String := "std/Out"

/-- Field of a class that has been instrumented. -/
def markerField : String := "__RESUMABLE_INSTRUMENTED"

/-- Start of the names of the fields for continuation points. -/
def pointField : String := "__RESUMABLE_ID_"

def contextType : ValueType := .object contextClass

def suspend : MethodRef := ⟨contextClass, "suspend", "()V"⟩
def getMode : MethodRef := ⟨contextClass, "getMode", "()I"⟩
def setMode : MethodRef := ⟨contextClass, "setMode", "(I)V"⟩
def loadNext : MethodRef :=
  ⟨contextClass, "loadNextMethodState", "()Lresumable/MethodState;"⟩
def unloadCurrent : MethodRef := ⟨contextClass, "unloadCurrentMethodState", "()V"⟩
def unloadToBefore : MethodRef :=
  ⟨contextClass, "unloadMethodStateToBefore", "(Lresumable/MethodState;)V"⟩
def pushNew : MethodRef := ⟨contextClass, "pushNewMethodState", "(Lresumable/MethodState;)V"⟩
def getPayload : MethodRef := ⟨contextClass, "getContext", "()Lstd/Object;"⟩
def setPayload : MethodRef := ⟨contextClass, "setContext", "(Lstd/Object;)V"⟩
def getArgumentCount : MethodRef := ⟨contextClass, "getArgumentCount", "()I"⟩
def getArgument : MethodRef := ⟨contextClass, "getArgument", "(I)Lstd/Object;"⟩

/-- Takes class name, method identity, continuation point, container and lock state. -/
def savedFrameInit : MethodRef :=
  ⟨savedFrameClass, Names.constructor,
    "(Lstd/String;II[Lstd/Object;Lresumable/LockState;)V"⟩
def getPoint : MethodRef := ⟨savedFrameClass, "getContinuationPoint", "()I"⟩
def getData : MethodRef := ⟨savedFrameClass, "getData", "()[Lstd/Object;"⟩
def getLockState : MethodRef := ⟨savedFrameClass, "getLockState", "()Lresumable/LockState;"⟩

def lockStateInit : MethodRef := ⟨lockStateClass, Names.constructor, "()V"⟩
def lockStateEnter : MethodRef := ⟨lockStateClass, "enter", "(Lstd/Object;)V"⟩
def lockStateExit : MethodRef := ⟨lockStateClass, "exit", "(Lstd/Object;)V"⟩
def lockStateToArray : MethodRef := ⟨lockStateClass, "toArray", "()[Lstd/Object;"⟩

def printLine : MethodRef := ⟨outputClass, "println", "(Lstd/String;)V"⟩

end StackCoroutine.Protocol
