import StackCoroutine.Code.Labels
import StackCoroutine.Instrument.Plan

/-!
Code that keeps a list of the monitors a frame holds, so that they can be given up when the frame is
saved and taken again, in the same order, when it is restored.
-/

namespace StackCoroutine

namespace LockVariables

def create (locks : LockVariables) : Code :=
  [.new Protocol.lockStateClass, .dup, callSpecial Protocol.lockStateInit, locks.state.store]

/-- Takes a monitor and lists it. -/
def enter (locks : LockVariables) : Code :=
  [.dup, .monitorEnter, locks.state.load, .swap, callVirtual Protocol.lockStateEnter]

/-- Strikes a monitor off the list and gives it up. -/
def exit (locks : LockVariables) : Code :=
  [.dup, locks.state.load, .swap, callVirtual Protocol.lockStateExit, .monitorExit]

/-- Takes all listed monitors, the oldest first. -/
def enterStored (locks : LockVariables) : Labelled Code := do
  let top ← freshLabel
  let done ← freshLabel
  return [locks.state.load, callVirtual Protocol.lockStateToArray, .dup, .arrayLength,
    locks.bound.store, .intConst 0, locks.counter.store,
    .label top, locks.counter.load, locks.bound.load, .branchCompare .ge done,
    .dup, locks.counter.load, .arrayLoad .ref, .monitorEnter, .increment locks.counter.slot 1,
    .jump top, .label done, .pop]

/-- Gives up all listed monitors, the latest first. -/
def exitStored (locks : LockVariables) : Labelled Code := do
  let top ← freshLabel
  let done ← freshLabel
  return [locks.state.load, callVirtual Protocol.lockStateToArray, .dup, .arrayLength,
    locks.counter.store,
    .label top, .increment locks.counter.slot (-1), locks.counter.load, .branch .lt done,
    .dup, locks.counter.load, .arrayLoad .ref, .monitorExit,
    .jump top, .label done, .pop]

end LockVariables

end StackCoroutine
