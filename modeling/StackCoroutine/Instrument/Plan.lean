import StackCoroutine.Class.Basic
import StackCoroutine.Coroutine.Mode
import StackCoroutine.Coroutine.Protocol
import StackCoroutine.Instrument.FrameStorage
import StackCoroutine.Instrument.Point
import StackCoroutine.Instrument.Settings

/-!
All that is known about a method before code is generated for it, and the short sequences of which
that code is made.
-/

namespace StackCoroutine

structure MethodPlan where
  owner : String
  name : String
  result : ValueType
  /-- Identity of the method in saved frames. -/
  methodId : Int32
  points : List Point
  monitorUses : List MonitorUse
  layout : SlotLayout
  settings : InstrumentSettings
  deriving DecidableEq, Repr, Inhabited

/-- A call of a method of the protocol. -/
def callVirtual (method : MethodRef) : Insn := .invoke .virtual method
def callSpecial (method : MethodRef) : Insn := .invoke .special method
def callStatic (method : MethodRef) : Insn := .invoke .static method

/-- Returns with an initial value, which nobody looks at. -/
def dummyReturn (type : ValueType) : Code :=
  match type.kind with
  | none => [.return none]
  | some .int => [.intConst 0, .return (some .int)]
  | some .long => [.longConst 0, .return (some .long)]
  | some .float => [.floatConst .zero, .return (some .float)]
  | some .double => [.doubleConst .zero, .return (some .double)]
  | some .ref => [.constNull, .return (some .ref)]

def throwIllegalState (message : String) : Code :=
  [.new Names.illegalState, .dup, .textConst message,
    callSpecial ⟨Names.illegalState, Names.constructor, "(Lstd/String;)V"⟩, .throw]

namespace MethodPlan

/-- How generated texts name the method. -/
def displayName (plan : MethodPlan) : String := plan.owner ++ "." ++ plan.name

/-- Shows a step in the way the settings ask for. -/
def marker (plan : MethodPlan) (step : String) : Code :=
  let text := plan.displayName ++ " " ++ step
  match plan.settings.markers with
  | .none => []
  | .constant => [.textConst text, .pop]
  | .stdout => [.textConst text, callStatic Protocol.printLine]

def setMode (plan : MethodPlan) (mode : Mode) : Code :=
  [plan.layout.context.load, .intConst mode.code, callVirtual Protocol.setMode]

/-- Goes to a label unless the coroutine is being saved. -/
def branchUnlessSaving (plan : MethodPlan) (target : Label) : Code :=
  [plan.layout.context.load, callVirtual Protocol.getMode, .intConst Mode.saving.code,
    .branchCompare .ne target]

/-- Code that is needed only where the method uses monitors. -/
def withLocks (plan : MethodPlan) (code : LockVariables → Labelled Code) : Labelled Code :=
  match plan.layout.locks with
  | some locks => code locks
  | none => return []

end MethodPlan

end StackCoroutine
