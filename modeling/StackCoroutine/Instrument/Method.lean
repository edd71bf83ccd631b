import StackCoroutine.Instrument.Detection
import StackCoroutine.Instrument.Dispatcher
import StackCoroutine.Instrument.PointCode

/-!
Instrumented methods: the dispatcher, the restoring code of every point, and then the method's own
code, in which each point is replaced by its saving code and each monitor instruction by a tracked
one.
-/

namespace StackCoroutine

/-- What was done to a method. -/
structure MethodReport where
  name : String
  descriptor : String
  methodId : Int32
  suspendPoints : Nat
  invokePoints : Nat
  guardedPoints : Nat
  monitorUses : Nat
  maxLocals : UInt16
  maxStack : UInt16
  deriving DecidableEq, Repr, Inhabited

/-- Continuation points of the method. -/
def MethodReport.pointCount (report : MethodReport) : Nat :=
  report.suspendPoints + report.invokePoints + report.guardedPoints

namespace MethodPlan

/-- The slots that the points of a method need. -/
def slotRequest (method : Method) (contextSlot : UInt16) (detection : Detection) : SlotRequest :=
  { maxLocals := method.maxLocals
    contextSlot
    frames := detection.points.map Point.frame
    cachedKinds := (detection.points.filter fun point => !point.kind.isSuspend).filterMap
      Point.resultKind
    needsThrowable := detection.points.any fun point => point.kind.guard?.isSome
    hasMonitors := !detection.monitorUses.isEmpty }

/-- Code for the points with the indices of their calls, each piece with fresh labels. -/
def pointCodes (plan : MethodPlan) : List Point → Labelled (List (Nat × PointCode))
  | [] => return []
  | point :: rest => do
      let code ← plan.pointCode point
      return (point.index, code) :: (← plan.pointCodes rest)

/-- What stands for the instruction with the given index. -/
def replacement (plan : MethodPlan) (codes : List (Nat × PointCode)) (index : Nat) (insn : Insn) :
    Code :=
  match codes.lookup index with
  | some code => code.save
  | none =>
      match plan.layout.locks, insn with
      | some locks, .monitorEnter => locks.enter
      | some locks, .monitorExit => locks.exit
      | _, insn => [insn]

/-- The parts that the code of an instrumented method is put together from. -/
structure Parts where
  dispatcher : Code
  codes : List (Nat × PointCode)
  /-- The label that the dispatcher goes to when nothing is restored, and what comes before the
  method's own code. -/
  start : Code
  deriving DecidableEq, Repr, Inhabited

def parts (plan : MethodPlan) : Labelled Parts := do
  let (normal, dispatcher) ← plan.dispatcher
  let codes ← plan.pointCodes plan.points
  let create := match plan.layout.locks with
    | some locks => locks.create
    | none => []
  return ⟨dispatcher, codes, .label normal :: create⟩

/-- All code before the method's own. -/
def Parts.opening (parts : Parts) : Code :=
  parts.dispatcher ++ parts.codes.flatMap (fun (_, code) => code.restore) ++ parts.start

/-- The method's own code with its calls and monitor instructions replaced. -/
def splice (plan : MethodPlan) (codes : List (Nat × PointCode)) (body : Code) : Code :=
  body.zipIdx.flatMap fun (insn, index) => plan.replacement codes index insn

/-- The whole code of the instrumented method. -/
def assemble (plan : MethodPlan) (body : Code) : Labelled Code := do
  let parts ← plan.parts
  return parts.opening ++ plan.splice parts.codes body

/-- Blocks around the calls that are made again; they come before those of the method. -/
def guardBlocks (plan : MethodPlan) : List TryBlock :=
  plan.points.filterMap fun point => point.kind.guard?.map Prod.snd

/-- The instrumented method, except for its stack height. -/
def rewrite (plan : MethodPlan) (method : Method) (supply : LabelSupply) : Method :=
  { method with
    code := ((plan.assemble method.code).run supply).1
    maxLocals := plan.layout.maxLocals
    tryBlocks := plan.guardBlocks ++ method.tryBlocks }

def report (plan : MethodPlan) (method : Method) : MethodReport :=
  { name := method.name
    descriptor := method.descriptor
    methodId := plan.methodId
    suspendPoints := plan.points.countP fun point => point.kind.isSuspend
    invokePoints := plan.points.countP fun point => point.kind.isInvoke
    guardedPoints := plan.points.countP fun point => point.kind.guard?.isSome
    monitorUses := plan.monitorUses.length
    maxLocals := method.maxLocals
    maxStack := method.maxStack }

/-- Gives the code its stack height and verifies it. -/
def finish (hierarchy : Hierarchy) (owner : String) (label : String) (method : Method) :
    Except InstrumentError Method := do
  let analysis ← (Analysis.analyze hierarchy owner method).mapError (.analysis label)
  let finished := { method with maxStack := UInt16.ofNat (min analysis.maxStack 65535) }
  let _ ← (Verification.verifyMethod hierarchy owner finished).mapError .verify
  return finished

end MethodPlan

namespace Method

/-- Plans how a method is instrumented; for a method without continuation points there is no plan. -/
def plan? (hierarchy : Hierarchy) (settings : InstrumentSettings) (owner : String)
    (method : Method) : Except InstrumentError (Option (MethodPlan × LabelSupply)) := do
  let label := method.label owner
  let type ← method.type.mapError (.descriptor label)
  match contextSlot? hierarchy method type with
  | none => return none
  | some contextSlot =>
      let analysis ← (Analysis.analyze hierarchy owner method).mapError (.analysis label)
      let supply := LabelSupply.above method.code method.tryBlocks
      let (result, supply) := (Detection.ofMethod hierarchy owner method analysis).run.run supply
      let detection ← result
      if detection.points.isEmpty then return none
      match SlotLayout.ofRequest? (MethodPlan.slotRequest method contextSlot detection) with
      | none => throw (.tooManyLocals label)
      | some layout =>
          let plan : MethodPlan := {
            owner
            name := method.name
            result := type.result
            methodId := method.contentHash
            points := detection.points
            monitorUses := detection.monitorUses
            layout
            settings }
          return some (plan, supply)

/-- Instruments a method; a method without continuation points needs nothing done. -/
def instrument (hierarchy : Hierarchy) (settings : InstrumentSettings) (owner : String)
    (method : Method) : Except InstrumentError (Option (Method × MethodReport)) := do
  match ← method.plan? hierarchy settings owner with
  | none => return none
  | some (plan, supply) =>
      let finished ← MethodPlan.finish hierarchy owner (method.label owner)
        (plan.rewrite method supply)
      return some (finished, plan.report finished)

end Method

end StackCoroutine
