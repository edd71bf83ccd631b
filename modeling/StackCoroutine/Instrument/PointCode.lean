import StackCoroutine.Instrument.MonitorTracking

/-!
The code for a continuation point: one piece stands in the place of the call and saves the frame
when the coroutine is suspended; the other, which the dispatcher goes to, restores the frame and
goes on behind the first.
-/

namespace StackCoroutine.MethodPlan

/-- The code for one point. -/
structure PointCode where
  save : Code
  restore : Code
  deriving DecidableEq, Repr, Inhabited

def step (plan : MethodPlan) (point : Point) (action : String) : Code :=
  plan.marker (action ++ " " ++ point.kind.name ++ " " ++ toString point.number)

def enterStored (plan : MethodPlan) : Labelled Code := plan.withLocks LockVariables.enterStored
def exitStored (plan : MethodPlan) : Labelled Code := plan.withLocks LockVariables.exitStored

/-- Hands the packed frame over to the context. -/
def pushSavedFrame (plan : MethodPlan) (point : Point) : Code :=
  [plan.layout.context.load, .new Protocol.savedFrameClass, .dup, .textConst plan.owner,
    .intConst plan.methodId, .intConst point.code, plan.layout.container.load,
    match plan.layout.locks with
    | some locks => locks.state.load
    | none => .constNull,
    callSpecial Protocol.savedFrameInit, callVirtual Protocol.pushNew]

def unloadCurrent (plan : MethodPlan) : Code :=
  [plan.layout.context.load, callVirtual Protocol.unloadCurrent]

/-- Drops the result of the call, if it has one. -/
def popResult (point : Point) : Code :=
  match point.resultKind with
  | some _ => [.pop]
  | none => []

/-- The variable that keeps the result of the call while the stack is restored. -/
def cache? (plan : MethodPlan) (point : Point) : Option Variable :=
  point.resultKind.bind plan.layout.cache.get

/-- Packs locals and stack, whose arrays are filled. -/
def saveLocalsAndPack (plan : MethodPlan) (frame : Frame) : Code :=
  plan.layout.allocateLocals frame.locals ++ plan.layout.saveLocals frame.locals ++
    plan.layout.pack frame.locals frame.stack

/-- Instead of suspending, saves the frame and returns. -/
def saveSuspend (plan : MethodPlan) (point : Point) : Labelled Code := do
  let frame := point.frame
  let release ← plan.exitStored
  return plan.step point "save" ++ plan.layout.allocateStack frame.stack ++
    plan.layout.saveStack frame.stack frame.stack.length ++ plan.saveLocalsAndPack frame ++
    plan.pushSavedFrame point ++ plan.setMode .saving ++ release ++ dummyReturn plan.result ++
    [.label point.resume]

/-- The innermost frame is restored: the coroutine runs again. -/
def restoreSuspend (plan : MethodPlan) (point : Point) : Labelled Code := do
  let frame := point.frame
  let acquire ← plan.enterStored
  return [.label point.restore] ++ plan.step point "restore" ++ acquire ++
    plan.layout.unpack frame.locals frame.stack ++ plan.layout.loadLocals frame.locals ++
    plan.layout.loadTop frame.stack frame.stack.length ++ [.pop] ++ plan.setMode .normal ++
    plan.unloadCurrent ++ [.jump point.resume]

/-- Code behind a guarded call: throws an exception of the repeated call on, inside the try
block. -/
def rethrow (plan : MethodPlan) (point : Point) : Code :=
  match point.kind.guard? with
  | some (rethrow, _) =>
      [.label rethrow] ++ (plan.layout.throwable.map Variable.load).toList ++ [.throw]
  | none => []

/-- Keeps the arguments, makes the call, and saves the frame if the callee was saved. -/
def saveInvoke (plan : MethodPlan) (point : Point) : Labelled Code := do
  let layout := plan.layout
  let frame := point.frame
  let arguments := point.argumentCount
  let release ← plan.exitStored
  return plan.step point "save" ++ layout.allocateStack frame.stack ++
    layout.saveStack frame.stack arguments ++ layout.loadTop frame.stack arguments ++
    [point.call] ++ plan.branchUnlessSaving point.resume ++ popResult point ++
    layout.saveStack (frame.stack.drop arguments) (frame.stack.length - arguments) ++
    plan.saveLocalsAndPack frame ++ release ++ plan.pushSavedFrame point ++
    dummyReturn plan.result ++ plan.rethrow point ++ [.label point.resume]

/-- Makes the call again, inside its own try block if it is guarded. -/
def repeatCall (point : Point) : Code :=
  match point.kind.guard? with
  | some (_, block) => [.label block.start, point.call, .label block.stop]
  | none => [point.call]

/-- After an exception of the repeated call: drops the saved frames it left, restores this one and
throws the exception on. -/
def restoreHandler (plan : MethodPlan) (point : Point) : Code :=
  let layout := plan.layout
  match point.kind.guard? with
  | some (rethrow, block) =>
      [.label block.handler] ++ (layout.throwable.map Variable.store).toList ++
        layout.loadLocals point.frame.locals ++
        layout.loadBelow point.frame.stack point.argumentCount ++
        [layout.context.load, layout.savedFrame.load, callVirtual Protocol.unloadToBefore,
          .jump rethrow]
  | none => []

/-- Restores the frame around a call that is made again and may be suspended again. -/
def restoreInvoke (plan : MethodPlan) (point : Point) : Labelled Code := do
  let layout := plan.layout
  let frame := point.frame
  let arguments := point.argumentCount
  let cache := plan.cache? point
  let notSaving ← freshLabel
  let acquire ← plan.enterStored
  let release ← plan.exitStored
  return [.label point.restore] ++ plan.step point "restore" ++ acquire ++
    layout.unpack frame.locals frame.stack ++
    (if plan.settings.debugMode then layout.loadLocals frame.locals else []) ++
    layout.loadTop frame.stack arguments ++ repeatCall point ++
    plan.branchUnlessSaving notSaving ++ popResult point ++ release ++
    dummyReturn plan.result ++
    [.label notSaving] ++ (cache.map Variable.store).toList ++
    layout.loadLocals frame.locals ++ layout.loadBelow frame.stack arguments ++
    (cache.map Variable.load).toList ++ plan.unloadCurrent ++ [.jump point.resume] ++
    plan.restoreHandler point

def pointCode (plan : MethodPlan) (point : Point) : Labelled PointCode := do
  if point.kind.isSuspend then
    let save ← plan.saveSuspend point
    let restore ← plan.restoreSuspend point
    return ⟨save, restore⟩
  else
    let save ← plan.saveInvoke point
    let restore ← plan.restoreInvoke point
    return ⟨save, restore⟩

end StackCoroutine.MethodPlan
