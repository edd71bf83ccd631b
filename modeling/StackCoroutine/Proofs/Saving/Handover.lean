import StackCoroutine.Instrument.Dispatcher
import StackCoroutine.Instrument.PointCode
import StackCoroutine.Proofs.Saving.Locks

/-!
Execution of the short sequences by which generated code deals with its context: it asks for the mode
and changes it, hands a packed frame over, and takes the next saved frame apart.
-/

namespace StackCoroutine

open Does Performs

/-- The layout of a plan has variables of the right categories, all above the method's own. -/
structure MethodPlan.Equipped (plan : MethodPlan) (own : Nat) : Prop where
  spread : plan.layout.Spread own
  below : plan.layout.context.slot.toNat < own
  context : plan.layout.context.kind = .ref
  savedFrame : plan.layout.savedFrame.kind = .ref
  container : plan.layout.container.kind = .ref
  locks : ∀ locks, plan.layout.locks = some locks → locks.Typed

/-- An invocation holds the context of the running coroutine. -/
structure MethodPlan.Attached (plan : MethodPlan) (locals : List Value) (world : World)
    (current : Context Value) : Prop where
  passed : locals[plan.layout.context.slot.toNat]? = some .context
  runs : world.context = some current

/-- The lock state of an invocation, if its method uses monitors. -/
def MethodPlan.HasLockState (plan : MethodPlan) (locals : List Value)
    (lockState : Option ObjectRef) : Prop :=
  match plan.layout.locks, lockState with
  | some locks, some object => locks.state.kind = .ref ∧
      locals[locks.state.slot.toNat]? = some (.ref object)
  | none, none => True
  | _, _ => False

namespace MethodPlan.Attached

variable {plan : MethodPlan} {locals locals' : List Value} {world after : World}
  {current next : Context Value}

theorem later (attached : plan.Attached locals world current)
    (same : locals'[plan.layout.context.slot.toNat]? = locals[plan.layout.context.slot.toNat]?)
    (runs : after.context = some next) : plan.Attached locals' after next :=
  ⟨same.trans attached.passed, runs⟩

end MethodPlan.Attached

namespace Performs

variable {classes : ClassTable} {plan : MethodPlan} {own : Nat} {locals stack : List Value}
  {world : World} {current next : Context Value}

/-- A step that is shown costs a text at most. -/
theorem marker (hosts : classes.Hosts) (interns : world.heap.Interns) (roomy : world.heap.Roomy 1)
    (step : String) :
    ∃ heap output, Performs classes (plan.marker step) ⟨locals, stack, world⟩
        ⟨locals, stack, { world with heap := heap, output := output }⟩ ∧
      world.heap.Grows heap 1 := by
  have grows := Heap.intern_grows roomy (plan.displayName ++ " " ++ step)
  have text := Heap.intern_text interns roomy (plan.displayName ++ " " ++ step)
  unfold MethodPlan.marker
  cases plan.settings.markers with
  | none => exact ⟨world.heap, world.output, nil, (Heap.Grows.refl _).mono (Nat.zero_le _)⟩
  | constant =>
      refine ⟨_, world.output, ?_, grows⟩
      apply cons (textConst _)
      exact single pop
  | stdout =>
      refine ⟨_, (plan.displayName ++ " " ++ step) :: world.output, ?_, grows⟩
      apply cons (textConst _)
      exact single (printLine hosts text)

theorem setMode (hosts : classes.Hosts) (equipped : plan.Equipped own)
    (attached : plan.Attached locals world current) {mode : Mode}
    (moves : current.setMode mode = .ok next) :
    Performs classes (plan.setMode mode) ⟨locals, stack, world⟩
      ⟨locals, stack, { world with context := some next }⟩ := by
  apply cons (load attached.passed equipped.context.symm)
  apply cons (intConst _)
  exact single (Does.setMode hosts attached.runs moves)

theorem unloadCurrent (hosts : classes.Hosts) (equipped : plan.Equipped own)
    (attached : plan.Attached locals world current)
    {frame : SavedFrame Value} (unloads : current.unloadCurrent = .ok (frame, next)) :
    Performs classes plan.unloadCurrent ⟨locals, stack, world⟩
      ⟨locals, stack, { world with context := some next }⟩ := by
  apply cons (load attached.passed equipped.context.symm)
  exact single (Does.unloadCurrent hosts attached.runs unloads)

/-- While the coroutine is being saved, control goes on behind the question. -/
theorem staysSaving (hosts : classes.Hosts) (equipped : plan.Equipped own)
    (attached : plan.Attached locals world current)
    (saving : current.mode = .saving) (target : Label) :
    Performs classes (plan.branchUnlessSaving target) ⟨locals, stack, world⟩
      ⟨locals, stack, world⟩ := by
  apply cons (load attached.passed equipped.context.symm)
  apply cons (getMode hosts attached.runs)
  apply cons (intConst _)
  rw [saving]
  exact single (branchCompare (by decide))

theorem popResult (point : Point) {result : List Value}
    (fits : result.length = point.resultKind.toList.length) :
    Performs classes (MethodPlan.popResult point) ⟨locals, result ++ stack, world⟩
      ⟨locals, stack, world⟩ := by
  unfold MethodPlan.popResult
  cases given : point.resultKind with
  | none =>
      rw [given] at fits
      rw [List.eq_nil_of_length_eq_zero fits]
      exact nil
  | some kind =>
      rw [given] at fits
      obtain ⟨value, rfl⟩ := List.length_eq_one_iff.mp fits
      exact single pop

/-- A packed frame goes to the cursor of the chain. -/
theorem pushSavedFrame (hosts : classes.Hosts) (equipped : plan.Equipped own)
    (attached : plan.Attached locals world current)
    (interns : world.heap.Interns) (roomy : world.heap.Roomy 2) (point : Point)
    {container : ObjectRef}
    (packed : locals[plan.layout.container.slot.toNat]? = some (.ref container))
    {lockState : Option ObjectRef} (tracked : plan.HasLockState locals lockState) :
    ∃ heap, Performs classes (plan.pushSavedFrame point) ⟨locals, stack, world⟩
        ⟨locals, stack, { world with
          heap := heap
          context := some (current.push ⟨plan.owner, plan.methodId, point.code, .ref container,
            lockState.map .ref⟩) }⟩ ∧
      world.heap.Grows heap 2 := by
  have provided : ClassTable.hostHierarchy.contains Protocol.savedFrameClass = true := by
    have listed : (Protocol.savedFrameInit, Native.savedFrameInit, 5) ∈ providedCalls := by
      simp [providedCalls]
    exact (MethodRef.isProvided_iff.mp (providedCalls_provided _ listed)).1
  let made := world.heap.alloc (.instance Protocol.savedFrameClass [])
  let named := made.2.intern plan.owner
  have roomy' : made.2.Roomy 1 := roomy.alloc
  have interns' : made.2.Interns := (Heap.Grows.alloc _).interns interns
  have grows : made.2.Grows named.2 1 := Heap.intern_grows roomy' _
  have here : named.2.get made.1 = .ok (.instance Protocol.savedFrameClass []) :=
    grows.keeps _ _ (Heap.get_alloc (roomy.mono (by decide)))
  have name : named.2.get named.1 = .ok (.text plan.owner) := Heap.intern_text interns' roomy' _
  -- The operand for the lock state, null where the method has none.
  let operand : Value := (lockState.map Value.ref).getD .null
  have recorded : Native.present operand = lockState.map .ref := by
    cases lockState <;> rfl
  have loadLocks : ∀ {insn below after}, (plan.pushSavedFrame point)[7]? = some insn →
      Does classes insn ⟨locals, below, after⟩ ⟨locals, operand :: below, after⟩ := by
    intro insn below after there
    unfold MethodPlan.HasLockState at tracked
    cases locks : plan.layout.locks with
    | none =>
        cases given : lockState with
        | none =>
            have absent : operand = .null := by simp [operand, given]
            have null : insn = .constNull := by
              simpa [MethodPlan.pushSavedFrame, locks] using there.symm
            rw [absent, null]
            exact constNull
        | some object => simp [locks, given] at tracked
    | some tracking =>
        cases given : lockState with
        | none => simp [locks, given] at tracked
        | some object =>
            simp only [locks, given] at tracked
            have present : operand = .ref object := by simp [operand, given]
            have loads : insn = tracking.state.load := by
              simpa [MethodPlan.pushSavedFrame, locks] using there.symm
            rw [present, loads]
            exact load tracked.2 tracked.1.symm
  let saved : SavedFrame Value :=
    ⟨plan.owner, plan.methodId, point.code, .ref container, Native.present operand⟩
  have held : (named.2.update made.1 fun _ => .savedFrame saved none).get made.1 =
      .ok (.savedFrame saved none) := Heap.get_update here _
  refine ⟨named.2.update made.1 fun _ => .savedFrame saved none, ?_, ?_⟩
  · rw [← recorded]
    apply cons (load attached.passed equipped.context.symm)
    apply cons (new (hosts.isKnown provided) (hosts.initialFields provided))
    apply cons dup
    apply cons (textConst _)
    apply cons (intConst _)
    apply cons (intConst _)
    apply cons (loadRef equipped.container packed)
    apply cons (loadLocks rfl)
    apply cons (savedFrameInit hosts here name)
    exact single (pushNew hosts attached.runs held)
  · apply ((Heap.Grows.alloc _).trans grows).update
    · exact fun other found => Heap.alloc_new (roomy.mono (by decide)) found rfl
    · intro content found
      cases here.symm.trans found

/-- The next saved frame is taken apart into the variables of generated code. -/
theorem loadSavedFrame (hosts : classes.Hosts) (equipped : plan.Equipped own)
    (attached : plan.Attached locals world current)
    (length : locals.length = plan.layout.maxLocals.toNat) (roomy : world.heap.Roomy 1)
    {position : Nat} {saved : SavedFrame Value} {container : ObjectRef}
    {lockState : Option ObjectRef} (loads : current.loadNext = .ok ((position, saved), next))
    (data : saved.data = .ref container) (locked : saved.lockState = lockState.map .ref)
    (agree : plan.layout.locks.isSome = lockState.isSome) :
    ∃ locals' object heap, Performs classes plan.loadSavedFrame ⟨locals, stack, world⟩
        ⟨locals', stack, { world with heap := heap, context := some next }⟩ ∧
      plan.layout.Keeps own {.savedFrame, .container, .lockState} locals locals' ∧
      locals'[plan.layout.savedFrame.slot.toNat]? = some (.ref object) ∧
      heap.get object = .ok (.savedFrame saved (some position)) ∧
      locals'[plan.layout.container.slot.toNat]? = some (.ref container) ∧
      plan.HasLockState locals' lockState ∧ world.heap.Grows heap 1 := by
  let made := world.heap.alloc (.savedFrame saved (some position))
  have here : made.2.get made.1 = .ok (.savedFrame saved (some position)) := Heap.get_alloc roomy
  have frame_var : plan.layout.varFor? .savedFrame = some plan.layout.savedFrame := rfl
  have container_var : plan.layout.varFor? .container = some plan.layout.container := rfl
  have frame_inside : plan.layout.savedFrame.slot.toNat < locals.length :=
    length ▸ equipped.spread.inside _ _ frame_var
  have container_inside : plan.layout.container.slot.toNat < locals.length :=
    length ▸ equipped.spread.inside _ _ container_var
  have apart : plan.layout.container.slot.toNat ≠ plan.layout.savedFrame.slot.toNat :=
    equipped.spread.apart _ _ _ _ container_var frame_var (by simp)
  let framed := locals.set plan.layout.savedFrame.slot.toNat (.ref made.1)
  let opened := framed.set plan.layout.container.slot.toNat (.ref container)
  let after : World := { world with context := some next, heap := made.2 }
  have first : Performs classes
      [plan.layout.context.load, callVirtual Protocol.loadNext, plan.layout.savedFrame.store,
        plan.layout.savedFrame.load, callVirtual Protocol.getData, plan.layout.container.store]
      ⟨locals, stack, world⟩ ⟨opened, stack, after⟩ := by
    have asked : Does classes (callVirtual Protocol.getData) ⟨framed, .ref made.1 :: stack, after⟩
        ⟨framed, .ref container :: stack, after⟩ := data ▸ getData hosts here
    apply cons (load attached.passed equipped.context.symm)
    apply cons (loadNext hosts attached.runs loads)
    apply cons (storeRef equipped.savedFrame frame_inside)
    apply cons (loadRef equipped.savedFrame (List.getElem?_set_self frame_inside))
    apply cons asked
    exact single (storeRef equipped.container (by simpa [framed] using container_inside))
  have keeps : plan.layout.Keeps own {.savedFrame, .container, .lockState} locals opened := by
    have stored : plan.layout.Keeps own {.savedFrame, .container, .lockState} locals framed :=
      .set equipped.spread frame_var (by simp) _
    exact stored.trans (.set equipped.spread container_var (by simp) _)
  have framed_held : opened[plan.layout.savedFrame.slot.toNat]? = some (.ref made.1) := by
    rw [List.getElem?_set_ne apart]
    exact List.getElem?_set_self frame_inside
  have container_held : opened[plan.layout.container.slot.toNat]? = some (.ref container) :=
    List.getElem?_set_self (by simpa [framed] using container_inside)
  -- Only a method that tracks monitors takes the list of them out of the frame as well.
  cases tracked : plan.layout.locks with
  | none =>
      obtain rfl : lockState = none := by simpa [tracked] using agree
      refine ⟨opened, made.1, made.2, ?_, keeps, framed_held, here, container_held, ?_, .alloc _⟩
      · unfold MethodPlan.loadSavedFrame
        simp only [tracked, List.append_nil]
        exact first
      · unfold MethodPlan.HasLockState
        rw [tracked]
        trivial
  | some locks =>
      obtain ⟨object, rfl⟩ : ∃ object, lockState = some object := by
        rw [tracked, Option.isSome_some] at agree
        exact Option.isSome_iff_exists.mp agree.symm
      have state_var : plan.layout.varFor? .lockState = some locks.state := by
        simp [SlotLayout.varFor?, tracked]
      have inside : locks.state.slot.toNat < opened.length := by
        rw [keeps.length, length]
        exact equipped.spread.inside _ _ state_var
      have taken : Performs classes
          [plan.layout.savedFrame.load, callVirtual Protocol.getLockState, locks.state.store]
          ⟨opened, stack, after⟩
          ⟨opened.set locks.state.slot.toNat (.ref object), stack, after⟩ := by
        have asked : Does classes (callVirtual Protocol.getLockState)
            ⟨opened, .ref made.1 :: stack, after⟩
            ⟨opened, saved.lockState.getD .null :: stack, after⟩ := getLockState hosts here
        rw [locked] at asked
        apply cons (loadRef equipped.savedFrame framed_held)
        apply cons asked
        exact single (storeRef (equipped.locks locks tracked).state inside)
      have others : ∀ role var, plan.layout.varFor? role = some var → role ≠ .lockState →
          (opened.set locks.state.slot.toNat (.ref object))[var.slot.toNat]? =
            opened[var.slot.toNat]? := fun role var found differ =>
        List.getElem?_set_ne (equipped.spread.apart _ _ _ _ state_var found (Ne.symm differ))
      refine ⟨_, made.1, made.2, ?_, keeps.trans (.set equipped.spread state_var (by simp) _),
        (others _ _ frame_var (by simp)).trans framed_held, here,
        (others _ _ container_var (by simp)).trans container_held, ?_, .alloc _⟩
      · unfold MethodPlan.loadSavedFrame
        simp only [tracked]
        exact first.append taken
      · unfold MethodPlan.HasLockState
        rw [tracked]
        exact ⟨(equipped.locks locks tracked).state, List.getElem?_set_self inside⟩

end Performs

namespace Machine.Reaches

variable {classes : ClassTable} {plan : MethodPlan} {own : Nat} {locals stack : List Value}
  {world : World} {current : Context Value} {method : PreparedMethod} {index : Nat} {callers : List Activation}

/-- While the coroutine is not being saved, control goes on at the label. -/
theorem leavesSaving (hosts : classes.Hosts) (equipped : plan.Equipped own)
    (attached : plan.Attached locals world current)
    (mode : current.mode ≠ .saving) {target : Label} {place : Nat} (resolves : method.Resolves)
    (has : method.Has index (plan.branchUnlessSaving target))
    (there : method.code[place]? = some (.label target)) :
    Reaches classes (Scene.within ⟨locals, stack, world⟩ method index callers)
      (Scene.within ⟨locals, stack, world⟩ method place callers) := by
  have asked : Performs classes
      [plan.layout.context.load, callVirtual Protocol.getMode, .intConst Mode.saving.code]
      ⟨locals, stack, world⟩
      ⟨locals, .int Mode.saving.code :: .int current.mode.code :: stack, world⟩ := by
    apply cons (load attached.passed equipped.context.symm)
    apply cons (getMode hosts attached.runs)
    exact Performs.single (intConst _)
  have differ : Condition.ne.holds current.mode.code Mode.saving.code = true := by
    cases given : current.mode with
    | saving => exact absurd given mode
    | normal | loading => decide
  have split : plan.branchUnlessSaving target =
      [plan.layout.context.load, callVirtual Protocol.getMode, .intConst Mode.saving.code] ++
        [.branchCompare .ne target] := rfl
  rw [split] at has
  exact (asked.reaches has.left callers).trans
    (ofLeaps (Leaps.branchCompare differ) has.right.head resolves there)

/-- What a dummy return hands to the caller. -/
theorem dummyReturn (type : ValueType) (has : method.Has index (dummyReturn type)) :
    Reaches classes (Scene.within ⟨locals, stack, world⟩ method index callers)
      (leave (type.kind.map Value.ofKind) callers, world) := by
  have returns : ∀ (kind : Kind) (position : Nat),
      method.code[position]? = some (.return (some kind)) →
      Reaches classes
        (Scene.within ⟨locals, .ofKind kind :: stack, world⟩ method position callers)
        (leave (some (.ofKind kind)) callers, world) := by
    intro kind position here
    apply ofReturn here
    apply (Execution.Yields.popKind (by cases kind <;> rfl)).bind
    exact Execution.Yields.pure _
  unfold StackCoroutine.dummyReturn at has
  cases given : type.kind with
  | none =>
      rw [given] at has
      exact ofReturn has.head (Execution.Yields.pure _)
  | some kind =>
      rw [given] at has
      cases kind
      all_goals
        refine .trans (single ?_) (returns _ (index + 1) has.tail.head)
        simp only [Machine.step, has.head]
        rfl

end Machine.Reaches

end StackCoroutine
