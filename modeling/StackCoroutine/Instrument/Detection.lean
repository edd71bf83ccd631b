import StackCoroutine.Coroutine.Protocol
import StackCoroutine.Instrument.Error
import StackCoroutine.Instrument.Point

/-!
Finds the continuation points of a method, in the order of its code. Calls that control never
reaches are left alone.
-/

namespace StackCoroutine

/-- The first parameter that takes a context. -/
def contextParameter? (hierarchy : Hierarchy) (type : MethodType) : Option Nat :=
  type.parameters.findIdx? fun parameter => match parameter with
    | .object name => hierarchy.isAssignable Protocol.contextClass name
    | _ => false

/-- The local slot in which a method is passed the context. -/
def contextSlot? (hierarchy : Hierarchy) (method : Method) (type : MethodType) :
    Option UInt16 := do
  let parameter ← contextParameter? hierarchy type
  let slot := method.receiverSlots + MethodType.slotsOf (type.parameters.take parameter)
  if slot ≤ 65535 then some (UInt16.ofNat slot) else none

/-- The call suspends the coroutine. -/
def isSuspendCall (hierarchy : Hierarchy) (method : MethodRef) : Bool :=
  method.name == Protocol.suspend.name && method.descriptor == Protocol.suspend.descriptor &&
    hierarchy.isAssignable Protocol.contextClass method.owner

/-- The type behind a descriptor that takes a context. -/
def contextTaking? (hierarchy : Hierarchy) (descriptor : String) : Option MethodType :=
  match MethodType.parse descriptor with
  | .ok type => if (contextParameter? hierarchy type).isSome then some type else none
  | .error _ => none

structure Detection where
  points : List Point
  monitorUses : List MonitorUse
  deriving DecidableEq, Repr, Inhabited

namespace Detection

/-- What is known about the method whose code is searched. -/
structure Scope where
  hierarchy : Hierarchy
  /-- How messages name the method. -/
  label : String
  isConstructor : Bool
  analysis : Analysis
  /-- Ranges of the try blocks by instruction indices. -/
  guarded : List (Nat × Nat)

def Scope.isGuarded (scope : Scope) (index : Nat) : Bool :=
  scope.guarded.any fun (start, stop) => start ≤ index && index < stop

/-- A detection that takes fresh labels. -/
abbrev Detecting := ExceptT InstrumentError Labelled

/-- The kind of a call that takes a context. -/
def invokeKind (scope : Scope) (index : Nat) : Labelled PointKind := do
  if scope.isGuarded index then
    let rethrow ← freshLabel
    let start ← freshLabel
    let stop ← freshLabel
    let handler ← freshLabel
    return .guardedInvoke rethrow ⟨start, stop, handler, none⟩
  else return .invoke

/-- The kind of a call and the type of the method called, if the call is one to consider. -/
def classify (scope : Scope) (index : Nat) (method : MethodRef) :
    Labelled (Option (PointKind × MethodType)) := do
  if isSuspendCall scope.hierarchy method then return some (.suspend, ⟨[], .void⟩)
  else match contextTaking? scope.hierarchy method.descriptor with
    | some type => return some (← invokeKind scope index, type)
    | none => return none

/-- Searches the code from an index on. -/
def scan (scope : Scope) (index : Nat) (line : Option UInt32) (found : Detection) :
    List Insn → Detecting Detection
  | [] => return found
  | .line number :: rest => scan scope (index + 1) (some number) found rest
  | .monitorEnter :: rest =>
      scan scope (index + 1) line
        { found with monitorUses := found.monitorUses ++ [⟨index, true⟩] } rest
  | .monitorExit :: rest =>
      scan scope (index + 1) line
        { found with monitorUses := found.monitorUses ++ [⟨index, false⟩] } rest
  | .invokeDynamic name descriptor :: rest => do
      if (contextTaking? scope.hierarchy descriptor).isSome then
        throw (.dynamicCallSite scope.label name descriptor)
      scan scope (index + 1) line found rest
  | .invoke dispatch method :: rest => do
      match ← classify scope index method with
      | none => scan scope (index + 1) line found rest
      | some (kind, type) =>
          if scope.isConstructor then throw (.suspendInConstructor scope.label)
          match scope.analysis.frame? index with
          | none => scan scope (index + 1) line found rest
          | some frame =>
              let resume ← freshLabel
              let restore ← freshLabel
              let number := found.points.length
              let point :=
                { number, kind, index, dispatch, method, type, frame, line, resume, restore }
              scan scope (index + 1) line { found with points := found.points ++ [point] } rest
  | _ :: rest => scan scope (index + 1) line found rest

/-- The points of a method with the frames of its analysis. -/
def ofMethod (hierarchy : Hierarchy) (owner : String) (method : Method) (analysis : Analysis) :
    Detecting Detection := do
  let label := method.label owner
  match Analysis.labelTable method.code with
  | .error cause => throw (.analysis label cause)
  | .ok labels =>
      let guarded := method.tryBlocks.filterMap fun block => do
        return (← labels.find? block.start, ← labels.find? block.stop)
      scan ⟨hierarchy, label, method.isConstructor, analysis, guarded⟩ 0 none ⟨[], []⟩ method.code

end Detection

end StackCoroutine
