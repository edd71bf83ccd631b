import StackCoroutine.Coroutine.SavedFrame

/-!
The chain of saved frames, outermost first, with a cursor. Frames before the cursor have been handed
out and live on the call stack again; a frame that saves goes to the cursor, so inner frames, which
save first, end up behind outer ones.
-/

namespace StackCoroutine

structure Chain (V : Type) where
  frames : List (SavedFrame V)
  cursor : Nat
  deriving DecidableEq, Repr, Inhabited

namespace Chain

def empty : Chain V := ⟨[], 0⟩

def length (chain : Chain V) : Nat := chain.frames.length

/-- The next frame to restore and its position. -/
def loadNext (chain : Chain V) : Except ProtocolError ((Nat × SavedFrame V) × Chain V) :=
  match chain.frames[chain.cursor]? with
  | some frame => .ok ((chain.cursor, frame), { chain with cursor := chain.cursor + 1 })
  | none =>
      if chain.frames.isEmpty then .error .emptyChain else .error (.chainExhausted chain.length)

/-- Drops the frame handed out last. -/
def unloadCurrent (chain : Chain V) : Except ProtocolError (SavedFrame V × Chain V) :=
  match chain.cursor with
  | 0 => .error .noCurrentState
  | position + 1 =>
      match chain.frames[position]? with
      | some frame => .ok (frame, ⟨chain.frames.eraseIdx position, position⟩)
      | none => .error .noCurrentState

/-- Drops the frame at a position and all after it. -/
def unloadToBefore (chain : Chain V) (position : Nat) : Except ProtocolError (Chain V) :=
  if position ≤ chain.length then .ok ⟨chain.frames.take position, position⟩
  else .error (.invalidPosition position chain.length)

/-- Saves a frame at the cursor, or at the end if the cursor is beyond it. -/
def push (chain : Chain V) (frame : SavedFrame V) : Chain V :=
  { chain with frames := chain.frames.insertIdx (min chain.cursor chain.length) frame }

/-- Equal up to a given equality of the values. -/
def agrees (same : V → V → Bool) (chain other : Chain V) : Bool :=
  chain.cursor == other.cursor && chain.frames.isEqv other.frames (SavedFrame.agrees same)

def rewind (chain : Chain V) : Chain V := { chain with cursor := 0 }

/-- Drops every frame. -/
def clear (chain : Chain V) : Chain V := { chain with frames := [], cursor := 0 }

end Chain

end StackCoroutine
