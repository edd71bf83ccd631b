import StackCoroutine.Frame.Basic

/-!
Continuation points: the calls of a method at which a coroutine can be suspended. Each has a number,
the frame it finds, and the labels that the code generated for it is reached by.
-/

namespace StackCoroutine

inductive PointKind where
  /-- A call of the suspend primitive. -/
  | suspend
  /-- A call of a method that takes the context. -/
  | invoke
  /-- Such a call inside a try block. Exceptions of the call, when it is made again to restore its
  frame, are caught by a block of their own and thrown on from `rethrow`, inside the try block. -/
  | guardedInvoke (rethrow : Label) (restoring : TryBlock)
  deriving DecidableEq, Repr, Inhabited

namespace PointKind

def name : PointKind → String
  | .suspend => "suspend"
  | .invoke => "invoke"
  | .guardedInvoke .. => "try-catch invoke"

def isSuspend : PointKind → Bool
  | .suspend => true
  | _ => false

def isInvoke : PointKind → Bool
  | .invoke => true
  | _ => false

/-- The block around the call that is made again. -/
def guard? : PointKind → Option (Label × TryBlock)
  | .guardedInvoke rethrow restoring => some (rethrow, restoring)
  | _ => none

end PointKind

structure Point where
  number : Nat
  kind : PointKind
  /-- Index of the call in the code. -/
  index : Nat
  dispatch : Dispatch
  method : MethodRef
  /-- Parameters and result of the method called. -/
  type : MethodType
  /-- The frame before the call. -/
  frame : Frame
  line : Option UInt32
  /-- Where the method goes on after the call. -/
  resume : Label
  /-- Where the frame is restored. -/
  restore : Label
  deriving DecidableEq, Repr, Inhabited

namespace Point

def call (point : Point) : Insn := .invoke point.dispatch point.method

/-- Stack entries that the call takes. -/
def argumentCount (point : Point) : Nat :=
  point.type.parameters.length + if point.dispatch.hasReceiver then 1 else 0

/-- Number of the point as generated code sees it. -/
def code (point : Point) : Int32 := Int32.ofNat point.number

/-- Category of the result of the call. -/
def resultKind (point : Point) : Option Kind := point.type.result.kind

end Point

/-- A monitor instruction of a method. -/
structure MonitorUse where
  index : Nat
  enters : Bool
  deriving DecidableEq, Repr, Inhabited

end StackCoroutine
