import StackCoroutine.Coroutine.Context

/-!
Drives a coroutine across its suspensions. The body returns both when it completes and when it
suspends; the mode of the context tells the two apart. After a failure the runner has to be reset.
-/

namespace StackCoroutine

/-- One invocation of the entry point of a coroutine with state `S`. -/
abbrev CoroutineBody (S V ε : Type) := S → Context V → Except ε Unit × S × Context V

inductive CoroutineError (ε : Type) where
  | execution (cause : ε)
  | terminated
  | protocol (cause : ProtocolError)
  deriving DecidableEq, Repr

def CoroutineError.message (text : ε → String) : CoroutineError ε → String
  | .execution cause => "Coroutine failed: " ++ text cause
  | .terminated => "Coroutine runner has terminated; reset it before executing again"
  | .protocol cause => cause.message

structure Runner (S V : Type) where
  state : S
  context : Context V
  terminated : Bool
  deriving Repr

namespace Runner

def ofParts (state : S) (context : Context V) : Runner S V := ⟨state, context, false⟩

def setPayload (runner : Runner S V) (payload : Option V) : Runner S V :=
  { runner with context := { runner.context with payload } }

/-- Runs to the next suspension, with result `true`, or to the end. -/
def execute (body : CoroutineBody S V ε) (runner : Runner S V) (arguments : List V) :
    Except (CoroutineError ε) Bool × Runner S V :=
  if runner.terminated then (.error .terminated, runner)
  else
    let (outcome, state, left) := body runner.state (runner.context.pushArguments arguments)
    let context := left.popArguments
    match outcome with
    | .error cause => (.error (.execution cause), ⟨state, context, true⟩)
    | .ok () =>
        if context.mode = .saving then
          match context.setMode .loading with
          | .ok ready => (.ok true, ⟨state, ready, false⟩)
          | .error cause => (.error (.protocol cause), ⟨state, context, false⟩)
        else (.ok false, ⟨state, context.reset, false⟩)

/-- Forgets saved frames and a failure. -/
def reset (runner : Runner S V) : Runner S V :=
  { runner with context := runner.context.reset, terminated := false }

end Runner

end StackCoroutine
