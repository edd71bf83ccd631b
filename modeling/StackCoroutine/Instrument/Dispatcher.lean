import StackCoroutine.Code.Labels
import StackCoroutine.Instrument.Plan

/-!
The start of an instrumented method: it goes to the method's own code, or takes its saved frame and
goes to the code that restores it.
-/

namespace StackCoroutine.MethodPlan

/-- Takes the next saved frame apart as far as every point needs it. -/
def loadSavedFrame (plan : MethodPlan) : Code :=
  let layout := plan.layout
  [layout.context.load, callVirtual Protocol.loadNext, layout.savedFrame.store,
    layout.savedFrame.load, callVirtual Protocol.getData, layout.container.store] ++
    match layout.locks with
    | some locks =>
        [layout.savedFrame.load, callVirtual Protocol.getLockState, locks.state.store]
    | none => []

/-- The code before the restoring code, with the label of the method's own code. -/
def dispatcher (plan : MethodPlan) : Labelled (Label × Code) := do
  let normal ← freshLabel
  let saving ← freshLabel
  let loading ← freshLabel
  let invalidMode ← freshLabel
  let invalidPoint ← freshLabel
  let code := plan.marker "dispatch" ++
    [plan.layout.context.load, callVirtual Protocol.getMode,
      .tableSwitch 0 invalidMode [normal, saving, loading], .label saving] ++
    throwIllegalState (plan.displayName ++ ": entered while saving") ++
    [.label invalidMode] ++ throwIllegalState (plan.displayName ++ ": unknown mode") ++
    [.label loading] ++ plan.marker "load" ++ plan.loadSavedFrame ++
    [plan.layout.savedFrame.load, callVirtual Protocol.getPoint,
      .tableSwitch 0 invalidPoint (plan.points.map Point.restore), .label invalidPoint] ++
    throwIllegalState (plan.displayName ++ ": unknown continuation point")
  return (normal, code)

end StackCoroutine.MethodPlan
