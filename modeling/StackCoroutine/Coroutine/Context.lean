import StackCoroutine.Coroutine.Chain

/-!
The context of a coroutine, which every suspendable method is passed: mode, saved frames, arguments
of the running invocations and a payload of the user's.
-/

namespace StackCoroutine

structure Context (V : Type) where
  mode : Mode
  chain : Chain V
  /-- Arguments of the invocations in progress, the latest first. -/
  argumentFrames : List (List V)
  payload : Option V
  deriving DecidableEq, Repr, Inhabited

namespace Context

def empty : Context V := ⟨.normal, .empty, [], none⟩

/-- Moves to the next mode; loading starts with the outermost frame. -/
def setMode (context : Context V) (target : Mode) : Except ProtocolError (Context V) := do
  let mode ← context.mode.transition target
  return { context with
    mode
    chain := if target = .loading then context.chain.rewind else context.chain }

def setModeCode (context : Context V) (code : Int32) : Except ProtocolError (Context V) := do
  context.setMode (← Mode.ofCode code)

/-- Back to normal with nothing saved. -/
def reset (context : Context V) : Context V :=
  { context with mode := .normal, chain := context.chain.clear }

def loadNext (context : Context V) :
    Except ProtocolError ((Nat × SavedFrame V) × Context V) := do
  let (loaded, chain) ← context.chain.loadNext
  return (loaded, { context with chain })

def unloadCurrent (context : Context V) : Except ProtocolError (SavedFrame V × Context V) := do
  let (frame, chain) ← context.chain.unloadCurrent
  return (frame, { context with chain })

/-- Drops a frame and all deeper ones; the frames that would be loaded next are gone, so loading
ends. -/
def unloadToBefore (context : Context V) (position : Nat) :
    Except ProtocolError (Context V) := do
  let chain ← context.chain.unloadToBefore position
  return { context with
    chain
    mode := if context.mode = .loading then .normal else context.mode }

def push (context : Context V) (frame : SavedFrame V) : Context V :=
  { context with chain := context.chain.push frame }

/-- Every saved frame still has its point in the classes. -/
def isCompatible (declares : FieldLookup) (context : Context V) : Except ProtocolError Bool :=
  context.chain.frames.foldlM
    (fun valid frame => if valid then frame.isValid declares else .ok false) true

def pushArguments (context : Context V) (arguments : List V) : Context V :=
  { context with argumentFrames := arguments :: context.argumentFrames }

def popArguments (context : Context V) : Context V :=
  { context with argumentFrames := context.argumentFrames.tail }

def argumentCount (context : Context V) : Except ProtocolError Nat :=
  match context.argumentFrames with
  | [] => .error .noArgumentFrame
  | arguments :: _ => .ok arguments.length

def argument (context : Context V) (index : Nat) : Except ProtocolError V :=
  match context.argumentFrames with
  | [] => .error .noArgumentFrame
  | arguments :: _ =>
      match arguments[index]? with
      | some value => .ok value
      | none => .error (.argumentOutOfRange index arguments.length)

/-- Equal up to a given equality of the values. -/
def agrees (same : V → V → Bool) (context other : Context V) : Bool :=
  context.mode == other.mode && context.chain.agrees same other.chain &&
    context.argumentFrames.isEqv other.argumentFrames (fun a b => a.isEqv b same) &&
    SavedFrame.optionAgrees same context.payload other.payload

end Context

end StackCoroutine
