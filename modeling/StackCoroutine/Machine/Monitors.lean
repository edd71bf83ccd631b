import StackCoroutine.Machine.Value

/-!
Reentrant monitors of a single thread: which ones are held and in which order they were taken.
-/

namespace StackCoroutine

/-- What can be locked. -/
inductive Monitor where
  | object (object : ObjectRef)
  | context
  deriving DecidableEq, Repr, Inhabited

def Monitor.ofValue? : Value → Option Monitor
  | .ref target => some (.object target)
  | .context => some .context
  | _ => none

/-- Acquisitions not yet released, oldest first. -/
structure Monitors where
  held : List Monitor
  deriving DecidableEq, Repr, Inhabited

namespace Monitors

def empty : Monitors := ⟨[]⟩

def enter (monitors : Monitors) (monitor : Monitor) : Monitors := ⟨monitors.held ++ [monitor]⟩

/-- Releases the latest acquisition, if there is one. -/
def exit? (monitors : Monitors) (monitor : Monitor) : Option Monitors :=
  (eraseLast? (· == monitor) monitors.held).map Monitors.mk

def count (monitors : Monitors) (monitor : Monitor) : Nat := monitors.held.count monitor

end Monitors

end StackCoroutine
