import StackCoroutine.Coroutine.Mode

/-!
The monitors one frame holds, in the order they were taken; one taken twice is listed twice. Giving
up a monitor takes its latest entry away.
-/

namespace StackCoroutine

structure LockState (M : Type) where
  monitors : List M
  deriving DecidableEq, Repr, Inhabited

/-- Removes the last element that satisfies a test, if one does. -/
def eraseLast? (test : α → Bool) : List α → Option (List α)
  | [] => none
  | item :: rest =>
      match eraseLast? test rest with
      | some erased => some (item :: erased)
      | none => if test item then some rest else none

namespace LockState

def empty : LockState M := ⟨[]⟩

def enter (state : LockState M) (monitor : M) : LockState M := ⟨state.monitors ++ [monitor]⟩

def exit (same : M → M → Bool) (state : LockState M) (monitor : M) :
    Except ProtocolError (LockState M) :=
  match eraseLast? (fun held => same held monitor) state.monitors with
  | some monitors => .ok ⟨monitors⟩
  | none => .error .monitorNotHeld

end LockState

end StackCoroutine
