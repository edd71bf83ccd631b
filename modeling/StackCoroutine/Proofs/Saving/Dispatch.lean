import StackCoroutine.Proofs.Saving.Handover

/-!
Execution of the start of an instrumented method. While the coroutine runs normally control comes to
the method's own code; while it is being restored the next saved frame is taken and control comes to
the restoring code of its point.
-/

namespace StackCoroutine

namespace MethodPlan

variable (plan : MethodPlan)

/-- The dispatcher asks for the mode. -/
def askMode : Code :=
  plan.marker "dispatch" ++ [plan.layout.context.load, callVirtual Protocol.getMode]

/-- It takes the next saved frame and asks for its point. -/
def askPoint (loading : Label) : Code :=
  .label loading :: plan.marker "load" ++ plan.loadSavedFrame ++
    [plan.layout.savedFrame.load, callVirtual Protocol.getPoint]

/-- The dispatcher with its labels. -/
def dispatchCode (normal saving loading invalidMode invalidPoint : Label) : Code :=
  plan.askMode ++
    (.tableSwitch 0 invalidMode [normal, saving, loading] ::
      (.label saving :: throwIllegalState (plan.displayName ++ ": entered while saving") ++
        (.label invalidMode :: throwIllegalState (plan.displayName ++ ": unknown mode") ++
          (plan.askPoint loading ++
            (.tableSwitch 0 invalidPoint (plan.points.map Point.restore) ::
              .label invalidPoint ::
                throwIllegalState (plan.displayName ++ ": unknown continuation point"))))))

theorem dispatcher_run (supply : LabelSupply) :
    ∃ saving loading invalidMode invalidPoint, (plan.dispatcher.run supply).1 =
      (⟨supply.next⟩,
        plan.dispatchCode ⟨supply.next⟩ saving loading invalidMode invalidPoint) := by
  refine ⟨⟨supply.next + 1⟩, ⟨supply.next + 1 + 1⟩, ⟨supply.next + 1 + 1 + 1⟩,
    ⟨supply.next + 1 + 1 + 1 + 1⟩, ?_⟩
  apply Prod.ext
  · rfl
  · show _ ++ _ ++ throwIllegalState _ ++ _ ++ throwIllegalState _ ++ _ ++ _ ++
      plan.loadSavedFrame ++ _ ++ throwIllegalState _ = _
    simp only [dispatchCode, askMode, askPoint, List.append_assoc, List.cons_append,
      List.nil_append]

end MethodPlan

namespace Machine.Reaches

open Does Performs

variable {classes : ClassTable} {plan : MethodPlan} {own : Nat} {locals : List Value} {world : World}
  {current next : Context Value} {method : PreparedMethod} {callers : List Activation}
  {normal saving loading invalidMode invalidPoint : Label}

theorem askMode_performs (hosts : classes.Hosts) (equipped : plan.Equipped own)
    (attached : plan.Attached locals world current)
    (interns : world.heap.Interns) (roomy : world.heap.Roomy 1) :
    ∃ heap output, Performs classes plan.askMode ⟨locals, [], world⟩
        ⟨locals, [.int current.mode.code], { world with heap := heap, output := output }⟩ ∧
      world.heap.Grows heap 1 := by
  obtain ⟨heap, output, shows, grows⟩ :=
    @Performs.marker classes plan locals [] world hosts interns roomy "dispatch"
  refine ⟨heap, output, shows.append ?_, grows⟩
  apply Performs.cons (load attached.passed equipped.context.symm)
  exact Performs.single (getMode hosts attached.runs)

/-- An invocation that runs normally comes to the method's own code. -/
theorem dispatchNormal (hosts : classes.Hosts) (equipped : plan.Equipped own)
    (attached : plan.Attached locals world current)
    (mode : current.mode = .normal) (interns : world.heap.Interns) (roomy : world.heap.Roomy 1)
    (resolves : method.Resolves)
    (has : method.Has 0 (plan.dispatchCode normal saving loading invalidMode invalidPoint))
    {place : Nat} (there : method.code[place]? = some (.label normal)) :
    ∃ heap output, Reaches classes (Scene.within ⟨locals, [], world⟩ method 0 callers)
        (Scene.within ⟨locals, [], { world with heap := heap, output := output }⟩ method place
          callers) ∧
      world.heap.Grows heap 1 := by
  obtain ⟨heap, output, asks, grows⟩ := @askMode_performs classes plan own locals world current
    hosts equipped attached interns roomy
  refine ⟨heap, output, ?_, grows⟩
  rw [mode] at asks
  apply (asks.reaches has.left callers).trans
  have listed : [normal, saving, loading][0]? = some normal := rfl
  exact ofLeaps (Leaps.tableSwitch (show 0 < 2 ^ 31 by decide) listed) has.right.head resolves there

/-- An invocation that is being restored takes the next saved frame and comes to the restoring code
of its point. -/
theorem dispatchLoading (hosts : classes.Hosts) (equipped : plan.Equipped own)
    (attached : plan.Attached locals world current)
    (mode : current.mode = .loading) (interns : world.heap.Interns) (roomy : world.heap.Roomy 3)
    (length : locals.length = plan.layout.maxLocals.toNat) {position : Nat}
    {saved : SavedFrame Value} {container : ObjectRef} {lockState : Option ObjectRef}
    (loads : current.loadNext = .ok ((position, saved), next))
    (data : saved.data = .ref container) (locked : saved.lockState = lockState.map .ref)
    (agree : plan.layout.locks.isSome = lockState.isSome) (resolves : method.Resolves)
    (has : method.Has 0 (plan.dispatchCode normal saving loading invalidMode invalidPoint))
    {point : Point} (listed : plan.points[point.number]? = some point)
    (small : point.number < 2 ^ 31) (named : saved.point = point.code) {place : Nat}
    (there : method.code[place]? = some (.label point.restore)) :
    ∃ locals' object heap output,
      Reaches classes (Scene.within ⟨locals, [], world⟩ method 0 callers)
        (Scene.within ⟨locals', [], { world with
          heap := heap
          output := output
          context := some next }⟩ method place callers) ∧
      plan.layout.Keeps own {.savedFrame, .container, .lockState} locals locals' ∧
      locals'[plan.layout.savedFrame.slot.toNat]? = some (.ref object) ∧
      heap.get object = .ok (.savedFrame saved (some position)) ∧
      locals'[plan.layout.container.slot.toNat]? = some (.ref container) ∧
      plan.HasLockState locals' lockState ∧ world.heap.Grows heap 3 := by
  obtain ⟨heap, output, asks, grows⟩ := @askMode_performs classes plan own locals world current
    hosts equipped attached interns (roomy.mono (by decide))
  rw [mode] at asks
  have roomy' : heap.Roomy 2 := grows.roomy roomy
  obtain ⟨heap', output', shows, grows'⟩ := @Performs.marker classes plan locals []
    { world with heap := heap, output := output } hosts (grows.interns interns)
    (roomy'.mono (by decide)) "load"
  have grown : world.heap.Grows heap' 2 := grows.trans grows'
  have attached' : plan.Attached locals { world with heap := heap', output := output' } current :=
    attached.later rfl attached.runs
  obtain ⟨locals', object, heap'', takes, keeps, frame_held, frame_object, container_held, tracked,
    grows''⟩ := @Performs.loadSavedFrame classes plan own locals []
      { world with heap := heap', output := output' } current next hosts equipped attached'
      length (grown.roomy roomy) position saved container lockState loads data locked
      agree
  refine ⟨locals', object, heap'', output', ?_, keeps, frame_held, frame_object, container_held,
    tracked, grown.trans grows''⟩
  let last : World := { world with heap := heap'', output := output', context := some next }
  have middle : Performs classes (plan.askPoint loading)
      ⟨locals, [], { world with heap := heap, output := output }⟩
      ⟨locals', [.int saved.point], last⟩ := by
    apply append
    · apply append _ takes
      exact cons (label loading) shows
    · apply cons (loadRef equipped.savedFrame frame_held)
      exact Performs.single (@getPoint classes locals' [] last object saved (some position) hosts
        frame_object)
  have has' := has.right.tail.right.right
  have loading_listed : [normal, saving, loading][2]? = some loading := rfl
  have point_listed : (plan.points.map Point.restore)[point.number]? = some point.restore := by
    simp [listed]
  -- The mode leads to the loading code, and the point of the saved frame from there on.
  apply (asks.reaches has.left callers).trans
  apply (ofLeaps (Leaps.tableSwitch (show 2 < 2 ^ 31 by decide) loading_listed) has.right.head
    resolves has'.left.left.left.head).trans
  apply (middle.reaches has'.left callers).trans
  rw [named]
  exact ofLeaps (Leaps.tableSwitch small point_listed) has'.right.head resolves there

end Machine.Reaches

end StackCoroutine
