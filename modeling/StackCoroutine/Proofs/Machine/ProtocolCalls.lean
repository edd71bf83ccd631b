import StackCoroutine.Instrument.Plan
import StackCoroutine.Proofs.Machine.Hosting

/-!
The calls by which generated code uses the protocol of coroutines, where the machine provides its
classes.
-/

namespace StackCoroutine

/-- The machine provides the method, which takes so many arguments besides its receiver. -/
def MethodRef.isProvided (method : MethodRef) (native : Native) (count : Nat) : Bool :=
  ClassTable.hostHierarchy.contains method.owner && Native.find? method == some native &&
    method.type.toOption.map (fun type => type.parameters.length) == some count

theorem MethodRef.isProvided_iff {method : MethodRef} {native : Native} {count : Nat} :
    method.isProvided native count = true ↔
      ClassTable.hostHierarchy.contains method.owner = true ∧
        Native.find? method = some native ∧
        ∃ type, method.type = .ok type ∧ type.parameters.length = count := by
  simp only [isProvided, Bool.and_eq_true, beq_iff_eq, Option.map_eq_some_iff,
    Outcome.toOption_eq_some, and_assoc]

/-- The methods of the protocol that generated code calls. -/
def providedCalls : List (MethodRef × Native × Nat) :=
  [(Protocol.getMode, .getMode, 0), (Protocol.setMode, .setMode, 1),
    (Protocol.loadNext, .loadNext, 0), (Protocol.unloadCurrent, .unloadCurrent, 0),
    (Protocol.unloadToBefore, .unloadToBefore, 1), (Protocol.pushNew, .pushNew, 1),
    (Protocol.savedFrameInit, .savedFrameInit, 5), (Protocol.getPoint, .getPoint, 0),
    (Protocol.getData, .getData, 0), (Protocol.getLockState, .getLockState, 0),
    (Protocol.lockStateInit, .lockStateInit, 0), (Protocol.lockStateEnter, .lockStateEnter, 1),
    (Protocol.lockStateExit, .lockStateExit, 1), (Protocol.lockStateToArray, .lockStateToArray, 0),
    (Protocol.printLine, .printLine, 1)]

theorem providedCalls_provided : ∀ call ∈ providedCalls,
    call.1.isProvided call.2.1 call.2.2 = true := by
  decide +kernel

namespace Does

open Exec Execution

variable {classes : ClassTable} {locals stack : List Value} {world after : World}

/-- A call on an instance of a provided class. -/
theorem virtualCall (hosts : classes.Hosts) {method : MethodRef} {receiver : Value}
    (native : Native) (arguments : List Value) (result : Option Value)
    (listed : (method, native, arguments.length) ∈ providedCalls)
    (known : receiver.className? world.heap = some method.owner)
    (called : Gives (native.call (receiver :: arguments)) world result after) :
    Does classes (callVirtual method) ⟨locals, (receiver :: arguments).reverse ++ stack, world⟩
      ⟨locals, result.toList ++ stack, after⟩ := by
  obtain ⟨hosted, found, type, typed, counted⟩ := MethodRef.isProvided_iff.mp
    (providedCalls_provided _ listed)
  have start : Gives (dispatchStart .virtual method (receiver :: arguments)) world method.owner
      world := by
    cases receiver with
    | ref _ | context => exact classOf known
    | null | int _ | long _ | float _ | double _ => cases known
  exact nativeCall typed (by simp [counted, Dispatch.hasReceiver]) start
    (hosts.resolve? hosted found) called

/-- A call of a constructor of a provided class. -/
theorem specialCall (hosts : classes.Hosts) {method : MethodRef} {receiver : ObjectRef}
    (native : Native) (arguments : List Value) (result : Option Value)
    (listed : (method, native, arguments.length) ∈ providedCalls)
    (called : Gives (native.call (.ref receiver :: arguments)) world result after) :
    Does classes (callSpecial method)
      ⟨locals, (.ref receiver :: arguments).reverse ++ stack, world⟩
      ⟨locals, result.toList ++ stack, after⟩ := by
  obtain ⟨hosted, found, type, typed, counted⟩ := MethodRef.isProvided_iff.mp
    (providedCalls_provided _ listed)
  have start : Gives (dispatchStart .special method (.ref receiver :: arguments)) world method.owner
      world := Gives.pure _
  exact nativeCall typed (by simp [counted, Dispatch.hasReceiver]) start
    (hosts.resolve? hosted found) called

/-- A line is printed. -/
theorem printLine (hosts : classes.Hosts) {object : ObjectRef} {content : String}
    (held : world.heap.get object = .ok (.text content)) :
    Does classes (callStatic Protocol.printLine) ⟨locals, .ref object :: stack, world⟩
      ⟨locals, stack, { world with output := content :: world.output }⟩ := by
  have shown : world.heap.display (.ref object) = .ok content := by
    unfold Heap.display
    dsimp only
    rw [held]
    rfl
  have called : Gives (Native.call .printLine [.ref object]) world none
      { world with output := content :: world.output } := by
    apply (Gives.argument rfl).bind
    apply (Gives.reading shown).bind
    exact rfl
  obtain ⟨hosted, found, type, typed, counted⟩ := MethodRef.isProvided_iff.mp
    (providedCalls_provided (Protocol.printLine, .printLine, 1) (by simp [providedCalls]))
  exact nativeCall typed (by simp [counted, Dispatch.hasReceiver])
    (Gives.pure _) (hosts.resolve? hosted found) called

section Context

variable {current next : Context Value}

theorem getMode (hosts : classes.Hosts) (runs : world.context = some current) :
    Does classes (callVirtual Protocol.getMode) ⟨locals, .context :: stack, world⟩
      ⟨locals, .int current.mode.code :: stack, world⟩ := by
  apply virtualCall hosts .getMode [] (some (.int current.mode.code)) (by simp [providedCalls]) rfl
  apply (Gives.argument rfl).bind
  apply (Gives.pure ()).bind
  apply (Gives.context runs).bind
  exact Gives.pure _

theorem setMode (hosts : classes.Hosts) (runs : world.context = some current) {mode : Mode}
    (moves : current.setMode mode = .ok next) :
    Does classes (callVirtual Protocol.setMode)
      ⟨locals, .int mode.code :: .context :: stack, world⟩
      ⟨locals, stack, { world with context := some next }⟩ := by
  have coded : current.setModeCode mode.code = .ok next := by
    cases mode <;> exact moves
  apply virtualCall hosts .setMode [.int mode.code] none
    (by simp [providedCalls]) rfl
  apply (Gives.argument rfl).bind
  apply (Gives.pure ()).bind
  apply (Gives.argument rfl).bind
  apply (Gives.ofType (show (Value.int mode.code).asInt = .ok mode.code from rfl)).bind
  apply (Gives.context runs).bind
  apply (Gives.ofProtocol coded).bind
  apply (Gives.setContext next).bind
  exact Gives.pure none

/-- The next saved frame is handed out as a new object. -/
theorem loadNext (hosts : classes.Hosts) (runs : world.context = some current) {position : Nat}
    {frame : SavedFrame Value} (loads : current.loadNext = .ok ((position, frame), next)) :
    Does classes (callVirtual Protocol.loadNext) ⟨locals, .context :: stack, world⟩
      ⟨locals, .ref (world.heap.alloc (.savedFrame frame (some position))).1 :: stack,
        { world with
          context := some next
          heap := (world.heap.alloc (.savedFrame frame (some position))).2 }⟩ := by
  apply virtualCall hosts .loadNext []
    (some (.ref (world.heap.alloc (.savedFrame frame (some position))).1)) (by simp [providedCalls]) rfl
  apply (Gives.argument rfl).bind
  apply (Gives.pure ()).bind
  have loaded : Gives Native.loadNextFrame world
      (.ref (world.heap.alloc (.savedFrame frame (some position))).1)
      { world with
        context := some next
        heap := (world.heap.alloc (.savedFrame frame (some position))).2 } := by
    apply (Gives.context runs).bind
    apply (Gives.ofProtocol loads).bind
    apply (Gives.setContext next).bind
    exact (Gives.changing _).bind (Gives.pure _)
  exact loaded.bind (Gives.pure _)

theorem unloadCurrent (hosts : classes.Hosts) (runs : world.context = some current)
    {frame : SavedFrame Value} (unloads : current.unloadCurrent = .ok (frame, next)) :
    Does classes (callVirtual Protocol.unloadCurrent) ⟨locals, .context :: stack, world⟩
      ⟨locals, stack, { world with context := some next }⟩ := by
  apply virtualCall hosts .unloadCurrent [] none (by simp [providedCalls]) rfl
  apply (Gives.argument rfl).bind
  apply (Gives.pure ()).bind
  apply (Gives.context runs).bind
  apply (Gives.ofProtocol unloads).bind
  apply (Gives.setContext next).bind
  exact Gives.pure none

theorem unloadToBefore (hosts : classes.Hosts) (runs : world.context = some current)
    {object : ObjectRef} {frame : SavedFrame Value} {position : Nat}
    (held : world.heap.get object = .ok (.savedFrame frame (some position)))
    (unloads : current.unloadToBefore position = .ok next) :
    Does classes (callVirtual Protocol.unloadToBefore)
      ⟨locals, .ref object :: .context :: stack, world⟩
      ⟨locals, stack, { world with context := some next }⟩ := by
  have place : world.heap.framePosition object = .ok position := by
    unfold Heap.framePosition
    rw [held]
    rfl
  apply virtualCall hosts .unloadToBefore [.ref object] none
    (by simp [providedCalls]) rfl
  apply (Gives.argument rfl).bind
  apply (Gives.pure ()).bind
  apply (Gives.argument rfl).bind
  apply (Gives.nonNull object _).bind
  apply (Gives.reading place).bind
  apply (Gives.context runs).bind
  apply (Gives.ofProtocol unloads).bind
  apply (Gives.setContext next).bind
  exact Gives.pure none

end Context

theorem className?_of_get {object : ObjectRef} {held : HeapObject}
    (found : world.heap.get object = .ok held) :
    (Value.ref object).className? world.heap = some held.className := by
  unfold Value.className? Heap.className
  dsimp only
  rw [found]
  rfl

section SavedFrames

variable {object : ObjectRef} {frame : SavedFrame Value} {position : Option Nat}

theorem savedFrame_read (held : world.heap.get object = .ok (.savedFrame frame position)) :
    world.heap.savedFrame object = .ok frame := by
  unfold Heap.savedFrame
  rw [held]
  rfl

theorem pushNew (hosts : classes.Hosts) {current : Context Value}
    (runs : world.context = some current)
    (held : world.heap.get object = .ok (.savedFrame frame position)) :
    Does classes (callVirtual Protocol.pushNew) ⟨locals, .ref object :: .context :: stack, world⟩
      ⟨locals, stack, { world with context := some (current.push frame) }⟩ := by
  apply virtualCall hosts .pushNew [.ref object] none
    (by simp [providedCalls]) rfl
  apply (Gives.argument rfl).bind
  apply (Gives.pure ()).bind
  apply (Gives.argument rfl).bind
  apply (Gives.nonNull object _).bind
  apply (Gives.reading (savedFrame_read held)).bind
  apply (Gives.context runs).bind
  apply (Gives.setContext (current.push frame)).bind
  exact Gives.pure none

theorem getPoint (hosts : classes.Hosts)
    (held : world.heap.get object = .ok (.savedFrame frame position)) :
    Does classes (callVirtual Protocol.getPoint) ⟨locals, .ref object :: stack, world⟩
      ⟨locals, .int frame.point :: stack, world⟩ := by
  apply virtualCall hosts .getPoint [] (some (.int frame.point)) (by simp [providedCalls])
    (className?_of_get held)
  apply (Gives.argument rfl).bind
  apply (Gives.nonNull object _).bind
  apply (Gives.reading (savedFrame_read held)).bind
  exact Gives.pure _

theorem getData (hosts : classes.Hosts)
    (held : world.heap.get object = .ok (.savedFrame frame position)) :
    Does classes (callVirtual Protocol.getData) ⟨locals, .ref object :: stack, world⟩
      ⟨locals, frame.data :: stack, world⟩ := by
  apply virtualCall hosts .getData [] (some frame.data) (by simp [providedCalls]) (className?_of_get held)
  apply (Gives.argument rfl).bind
  apply (Gives.nonNull object _).bind
  apply (Gives.reading (savedFrame_read held)).bind
  exact Gives.pure _

theorem getLockState (hosts : classes.Hosts)
    (held : world.heap.get object = .ok (.savedFrame frame position)) :
    Does classes (callVirtual Protocol.getLockState) ⟨locals, .ref object :: stack, world⟩
      ⟨locals, frame.lockState.getD .null :: stack, world⟩ := by
  apply virtualCall hosts .getLockState [] (some (frame.lockState.getD .null)) (by simp [providedCalls])
    (className?_of_get held)
  apply (Gives.argument rfl).bind
  apply (Gives.nonNull object _).bind
  apply (Gives.reading (savedFrame_read held)).bind
  exact Gives.pure _

/-- The constructor makes a saved frame of the object. -/
theorem initSavedFrame {name : ObjectRef} {held : HeapObject} {className : String}
    {methodId point : Int32} {data lockState : Value} (made : world.heap.get object = .ok held)
    (named : world.heap.text name = .ok className) :
    Gives (Native.initSavedFrame .savedFrameInit
      [.ref object, .ref name, .int methodId, .int point, data, lockState]) world ()
      { world with
        heap := world.heap.update object fun _ =>
          .savedFrame ⟨className, methodId, point, data, Native.present lockState⟩ none } := by
  have replaced : world.heap.replace object
      (.savedFrame ⟨className, methodId, point, data, Native.present lockState⟩ none) =
        .ok (world.heap.update object fun _ =>
          .savedFrame ⟨className, methodId, point, data, Native.present lockState⟩ none) := by
    unfold Heap.replace
    rw [made]
  apply (Gives.argument rfl).bind
  apply (Gives.nonNull object _).bind
  apply (Gives.argument rfl).bind
  apply (Gives.ofType (show (Value.ref name).asObject = .ok (some name) from rfl)).bind
  apply (Gives.reading named).bind
  apply (Gives.argument rfl).bind
  apply (Gives.argument rfl).bind
  apply (Gives.ofType (show (Value.int methodId).asInt = .ok methodId from rfl)).bind
  apply (Gives.argument rfl).bind
  apply (Gives.ofType (show (Value.int point).asInt = .ok point from rfl)).bind
  apply (Gives.argument rfl).bind
  exact (Gives.reading replaced).bind (Gives.changeHeap _)

/-- A new object becomes a saved frame. -/
theorem savedFrameInit (hosts : classes.Hosts) {name : ObjectRef} {held : HeapObject}
    {className : String} {methodId point : Int32} {data lockState : Value}
    (made : world.heap.get object = .ok held) (named : world.heap.get name = .ok (.text className)) :
    Does classes (callSpecial Protocol.savedFrameInit)
      ⟨locals, lockState :: data :: .int point :: .int methodId :: .ref name :: .ref object :: stack,
        world⟩
      ⟨locals, stack, { world with
        heap := world.heap.update object fun _ =>
          .savedFrame ⟨className, methodId, point, data, Native.present lockState⟩ none }⟩ := by
  have text : world.heap.text name = .ok className := by
    unfold Heap.text
    rw [named]
    rfl
  apply specialCall hosts .savedFrameInit [.ref name, .int methodId, .int point, data, lockState]
    none (by simp [providedCalls])
  exact (initSavedFrame made text).bind (Gives.pure none)

end SavedFrames

section LockStates

variable {object : ObjectRef} {state : LockState Value}

theorem lockState_read (held : world.heap.get object = .ok (.lockState state)) :
    world.heap.lockState object = .ok state := by
  unfold Heap.lockState
  rw [held]
  rfl

/-- The listed monitors go into a new array. -/
theorem lockStateToArray (hosts : classes.Hosts)
    (held : world.heap.get object = .ok (.lockState state)) :
    Does classes (callVirtual Protocol.lockStateToArray) ⟨locals, .ref object :: stack, world⟩
      ⟨locals, .ref (world.heap.alloc (.array (.object Names.object) state.monitors.toArray)).1 ::
          stack,
        { world with
          heap := (world.heap.alloc (.array (.object Names.object) state.monitors.toArray)).2 }⟩ := by
  apply virtualCall hosts .lockStateToArray []
    (some (.ref (world.heap.alloc (.array (.object Names.object) state.monitors.toArray)).1))
    (by simp [providedCalls]) (className?_of_get held)
  apply (Gives.argument rfl).bind
  apply (Gives.nonNull object _).bind
  apply (Gives.reading (lockState_read held)).bind
  exact (Gives.changing _).bind (Gives.pure _)

/-- A monitor is listed. -/
theorem lockStateEnter (hosts : classes.Hosts) (monitor : Value)
    (held : world.heap.get object = .ok (.lockState state)) :
    Does classes (callVirtual Protocol.lockStateEnter)
      ⟨locals, monitor :: .ref object :: stack, world⟩
      ⟨locals, stack,
        { world with heap := world.heap.setLockState object (state.enter monitor) }⟩ := by
  apply virtualCall hosts .lockStateEnter [monitor] none (by simp [providedCalls])
    (className?_of_get held)
  apply (Gives.argument rfl).bind
  apply (Gives.nonNull object _).bind
  apply (Gives.argument rfl).bind
  apply (Gives.reading (lockState_read held)).bind
  exact (Gives.changeHeap _).bind (Gives.pure none)

/-- A listed monitor is struck off. -/
theorem lockStateExit (hosts : classes.Hosts) {monitor : Value} {left : LockState Value}
    (held : world.heap.get object = .ok (.lockState state))
    (exits : state.exit Value.isSameMonitor monitor = .ok left) :
    Does classes (callVirtual Protocol.lockStateExit)
      ⟨locals, monitor :: .ref object :: stack, world⟩
      ⟨locals, stack, { world with heap := world.heap.setLockState object left }⟩ := by
  apply virtualCall hosts .lockStateExit [monitor] none (by simp [providedCalls])
    (className?_of_get held)
  have released : Gives (Native.releaseLock .lockStateExit [.ref object, monitor]) world ()
      { world with heap := world.heap.setLockState object left } := by
    apply (Gives.argument rfl).bind
    apply (Gives.nonNull object _).bind
    apply (Gives.argument rfl).bind
    apply (Gives.reading (lockState_read held)).bind
    rw [exits]
    exact Gives.changeHeap _
  exact released.bind (Gives.pure none)

end LockStates

end Does

end StackCoroutine
