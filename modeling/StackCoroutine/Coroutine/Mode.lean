/-!
What instrumented code is doing, and the faults of the suspend and resume protocol. The three modes
form a cycle: a suspension saves, the next run loads, and the innermost frame returns to normal.
-/

namespace StackCoroutine

inductive Mode where
  /-- Running user code. -/
  | normal
  /-- Unwinding the call stack into saved frames. -/
  | saving
  /-- Rebuilding the call stack from saved frames. -/
  | loading
  deriving DecidableEq, Repr, Inhabited

inductive ProtocolError where
  | illegalTransition (source target : Mode)
  | invalidMode (code : Int32)
  | emptyChain
  | chainExhausted (length : Nat)
  | noCurrentState
  | invalidPosition (position length : Nat)
  | invalidContinuationPoint (className : String) (point : Int32)
  | classNotFound (className : String)
  | monitorNotHeld
  | noArgumentFrame
  | argumentOutOfRange (index count : Nat)
  deriving DecidableEq, Repr

namespace Mode

/-- The number generated code sees. -/
def code : Mode → Int32
  | .normal => 0
  | .saving => 1
  | .loading => 2

def name : Mode → String
  | .normal => "Normal"
  | .saving => "Saving"
  | .loading => "Loading"

def ofCode (code : Int32) : Except ProtocolError Mode :=
  if code = 0 then .ok .normal
  else if code = 1 then .ok .saving
  else if code = 2 then .ok .loading
  else .error (.invalidMode code)

def next : Mode → Mode
  | .normal => .saving
  | .saving => .loading
  | .loading => .normal

/-- Only the next mode of the cycle can follow. -/
def canBecome (mode target : Mode) : Bool := mode.next = target

def transition (mode target : Mode) : Except ProtocolError Mode :=
  if mode.canBecome target then .ok target else .error (.illegalTransition mode target)

end Mode

def ProtocolError.message : ProtocolError → String
  | .illegalTransition source target =>
      "Illegal mode transition " ++ source.name ++ " -> " ++ target.name
  | .invalidMode code => "Invalid mode code " ++ toString code.toInt
  | .emptyChain => "Method state chain is empty"
  | .chainExhausted length => s!"Method state chain exhausted after {length} states"
  | .noCurrentState => "No method state is currently loaded"
  | .invalidPosition position length =>
      s!"Chain position {position} out of range (length {length})"
  | .invalidContinuationPoint className point =>
      "Invalid continuation point " ++ toString point.toInt ++ " for " ++ className
  | .classNotFound className => "Class " ++ className ++ " not found"
  | .monitorNotHeld => "Monitor is not held"
  | .noArgumentFrame => "No argument frame is active"
  | .argumentOutOfRange index count => s!"Argument {index} out of range ({count} arguments)"

end StackCoroutine
