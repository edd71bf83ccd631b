import StackCoroutine.Proofs.Instrument.Restoring
import StackCoroutine.Proofs.Saving.Suspending

/-!
Execution of the restoring code of a call. The arguments are restored and the call is made again. If
the callee is saved again the invocation gives its monitors up and returns, and its saved frame stays
in the chain; if the callee returns or throws, the rest of the frame is restored and the saved frame is
dropped.
-/

namespace StackCoroutine

open SlotLayout (presentKinds)
open Does Performs

variable {classes : ClassTable} {plan : MethodPlan} {own : Nat} {point : Point} {packing : Packing}
  {content : UInt16 → Value} {locals arguments lower entries : List Value} {world : World}
  {current : Context Value} {lockState : Option ObjectRef}

/-- Above the method's own slots nothing changes where locals come back. -/
theorem MethodPlan.Reopened.reload {before middle after : List Value}
    (reopened : plan.Reopened point packing before middle)
    (houses : plan.layout.Houses own point.frame)
    (reloads : Reloads own (storedLocals point.frame.locals) content middle after) :
    plan.Reopened point packing before after where
  length := reloads.length.trans reopened.length
  roles role var found listed := by
    rw [reloads.above houses.slots houses.small (houses.spread.above _ _ found)]
    exact reopened.roles role var found listed
  localsArrays := by
    intro kind listed
    obtain ⟨var, _⟩ := houses.localsArrays kind listed
    rw [reloads.above houses.slots houses.small (houses.spread.above _ _ var)]
    exact reopened.localsArrays kind listed
  stackArrays := by
    intro kind listed
    obtain ⟨var, _⟩ := houses.stackArrays kind listed
    rw [reloads.above houses.slots houses.small (houses.spread.above _ _ var)]
    exact reopened.stackArrays kind listed

/-- Results and exceptions are put aside in variables of their own. -/
theorem MethodPlan.Reopened.keep {before middle after : List Value}
    (reopened : plan.Reopened point packing before middle)
    (houses : plan.layout.Houses own point.frame) {roles : Set Role}
    (keeps : plan.layout.Keeps own roles middle after)
    (aside : roles ⊆ insert .throwable (Set.range Role.cache)) :
    plan.Reopened point packing before after where
  length := keeps.length.trans reopened.length
  roles role var found listed := by
    have apart : role ∉ roles := by
      intro member
      have other := aside member
      rcases listed with rfl | rfl | rfl <;> simp at other
    exact (keeps.others _ _ found apart).trans (reopened.roles role var found listed)
  localsArrays := by
    intro kind listed
    obtain ⟨var, _⟩ := houses.localsArrays kind listed
    rw [keeps.others _ _ var fun member => by simpa using aside member]
    exact reopened.localsArrays kind listed
  stackArrays := by
    intro kind listed
    obtain ⟨var, _⟩ := houses.stackArrays kind listed
    rw [keeps.others _ _ var fun member => by simpa using aside member]
    exact reopened.stackArrays kind listed

theorem MethodPlan.beforeCall_eq (plan : MethodPlan) (point : Point) (acquire : Code) :
    plan.beforeCall point acquire = plan.reopen point acquire ++
      ((if plan.settings.debugMode then plan.layout.loadLocals point.frame.locals else []) ++
        plan.layout.loadTop point.frame.stack point.argumentCount) := by
  simp only [beforeCall, reopen, List.append_assoc, List.cons_append, List.nil_append]

/-- The arguments are restored for the call to be made again. -/
theorem Carries.beforeCall (hosts : classes.Hosts) (equipped : plan.Equipped own)
    (houses : plan.layout.Houses own point.frame)
    (passed : locals[plan.layout.context.slot.toNat]? = some .context)
    (records : plan.Records locals world.heap lockState entries)
    (length : locals.length = plan.layout.maxLocals.toNat) (interns : world.heap.Interns)
    (roomy : world.heap.Roomy 2)
    (packed : locals[plan.layout.container.slot.toNat]? = some (.ref packing.container))
    (packs : world.heap.Packs packing plan.layout point.frame content (arguments ++ lower))
    (accepts : point.frame.Accepts classes world.heap content (arguments ++ lower))
    (saved : content plan.layout.context.slot = .context)
    (taken : arguments.length = point.argumentCount) (supply : LabelSupply) :
    ∃ locals' heap output,
      Carries classes (plan.beforeCall point (plan.enterStored.run supply).1) ⟨locals, [], world⟩
        ⟨locals', arguments, { world with
          heap := heap
          output := output
          monitors := ⟨world.monitors.held ++ monitorsOf entries⟩ }⟩ ∧
      plan.Reopened point packing locals locals' ∧
      locals'[plan.layout.context.slot.toNat]? = some .context ∧ world.heap.Grows heap 2 := by
  obtain ⟨locals₁, heap, output, opens, reopened, own₁, grown⟩ := @Carries.reopen classes plan own
    locals (arguments ++ lower) entries world lockState hosts equipped point houses records length
    interns roomy packing content packed packs supply
  let after : World := { world with
    heap := heap
    output := output
    monitors := ⟨world.monitors.held ++ monitorsOf entries⟩ }
  have packs' : after.heap.Packs packing plan.layout point.frame content (arguments ++ lower) :=
    packs.grow grown.keeps
  have accepts' : point.frame.Accepts classes after.heap content (arguments ++ lower) :=
    accepts.later grown.keeps.keepsClasses
  -- In debug mode the locals come back before the call already.
  have debugged : ∃ locals₂, Performs classes
        (if plan.settings.debugMode then plan.layout.loadLocals point.frame.locals else [])
        ⟨locals₁, [], after⟩ ⟨locals₂, [], after⟩ ∧
      plan.Reopened point packing locals locals₂ ∧
      locals₂[plan.layout.context.slot.toNat]? = some .context := by
    have passed₁ := (own₁ _ equipped.below).trans passed
    split
    · obtain ⟨locals₂, loads, reloads⟩ := @Performs.loadLocals classes locals₁ []
        (arguments ++ lower) after plan.layout own point.frame packing content houses
        (reopened.length.trans length) reopened.localsArrays packs' accepts'
      exact ⟨locals₂, loads, reopened.reload houses reloads, reloads.context saved passed₁⟩
    · exact ⟨locals₁, Performs.nil, reopened, passed₁⟩
  obtain ⟨locals₂, debugs, reopened₂, passed₂⟩ := debugged
  have held := List.forall₂_take point.argumentCount
    (Performs.heldEntries packs'.stack accepts'.stack)
  rw [← taken, List.take_left, taken] at held
  have pushes := @Performs.loadTop classes locals₂ [] arguments after plan.layout own point.frame
    packing.stack houses reopened₂.stackArrays point.argumentCount held
  rw [List.append_nil] at pushes
  refine ⟨locals₂, heap, output, ?_, reopened₂, passed₂, grown⟩
  rw [MethodPlan.beforeCall_eq]
  exact opens.append (.ofPerforms (debugs.append pushes))

/-- The rest of the frame is restored, with the result of the call on top. -/
def MethodPlan.restoreRest (plan : MethodPlan) (point : Point) : Code :=
  ((plan.cache? point).map Variable.store).toList ++
    plan.layout.loadLocals point.frame.locals ++
    plan.layout.loadBelow point.frame.stack point.argumentCount ++
    ((plan.cache? point).map Variable.load).toList ++ plan.unloadCurrent

theorem MethodPlan.afterCall_eq (plan : MethodPlan) (point : Point) (notSaving : Label)
    (release : Code) :
    plan.afterCall point notSaving release =
      plan.branchUnlessSaving notSaving ++ ((popResult point ++ release) ++
        (dummyReturn plan.result ++ ((.label notSaving :: plan.restoreRest point) ++
          (.jump point.resume :: plan.restoreHandler point)))) := by
  simp only [afterCall, restoreRest, List.append_assoc, List.cons_append, List.nil_append]

/-- There is a variable for the result of the call. -/
def MethodPlan.Caches (plan : MethodPlan) (point : Point) : Prop :=
  ∀ kind, point.resultKind = some kind →
    ∃ var, plan.layout.varFor? (.cache kind) = some var ∧ var.kind = kind

namespace Performs

/-- The locals come back, and the entries below the arguments. -/
theorem restoreBelow (houses : plan.layout.Houses own point.frame)
    {before : List Value} (reopened : plan.Reopened point packing before locals)
    (length : before.length = plan.layout.maxLocals.toNat)
    (passed : locals[plan.layout.context.slot.toNat]? = some .context)
    (packs : world.heap.Packs packing plan.layout point.frame content (arguments ++ lower))
    (accepts : point.frame.Accepts classes world.heap content (arguments ++ lower))
    (saved : content plan.layout.context.slot = .context)
    (taken : arguments.length = point.argumentCount) :
    ∃ locals', Performs classes
        (plan.layout.loadLocals point.frame.locals ++
          plan.layout.loadBelow point.frame.stack point.argumentCount)
        ⟨locals, [], world⟩ ⟨locals', lower, world⟩ ∧
      Reloads own (storedLocals point.frame.locals) content locals locals' ∧
      plan.Reopened point packing before locals' ∧
      locals'[plan.layout.context.slot.toNat]? = some .context := by
  obtain ⟨locals', loads, reloads⟩ := @Performs.loadLocals classes locals [] (arguments ++ lower)
    world plan.layout own point.frame packing content houses (reopened.length.trans length)
    reopened.localsArrays packs accepts
  have reopened' := reopened.reload houses reloads
  have held := List.forall₂_drop point.argumentCount
    (Performs.heldEntries packs.stack accepts.stack)
  rw [← taken, List.drop_left, taken] at held
  have pushes := @Performs.loadBelow classes locals' [] lower world plan.layout own point.frame
    packing.stack houses reopened'.stackArrays point.argumentCount held
  rw [List.append_nil] at pushes
  exact ⟨locals', loads.append pushes, reloads, reopened', reloads.context saved passed⟩

/-- The result of the call is put aside while the frame is restored. -/
theorem putAside (houses : plan.layout.Houses own point.frame) (caches : plan.Caches point)
    (length : locals.length = plan.layout.maxLocals.toNat) {result : List Value}
    (kinds : result.map Value.kind = point.resultKind.toList) :
    ∃ locals', Performs classes ((plan.cache? point).map Variable.store).toList
        ⟨locals, result, world⟩ ⟨locals', [], world⟩ ∧
      plan.layout.Keeps own (Set.range Role.cache) locals locals' ∧
      ∀ {later stack after}, (∀ role var, plan.layout.varFor? role = some var →
          later[var.slot.toNat]? = locals'[var.slot.toNat]?) →
        Performs classes ((plan.cache? point).map Variable.load).toList ⟨later, stack, after⟩
          ⟨later, result ++ stack, after⟩ := by
  unfold MethodPlan.cache?
  cases given : point.resultKind with
  | none =>
      rw [given] at kinds
      obtain rfl : result = [] := List.map_eq_nil_iff.mp kinds
      exact ⟨locals, Performs.nil, .refl, fun _ => Performs.nil⟩
  | some kind =>
      obtain ⟨var, found, has⟩ := caches kind given
      have cached : plan.layout.cache.get kind = some var := found
      rw [given] at kinds
      obtain ⟨value, rfl, category⟩ : ∃ value, result = [value] ∧ value.kind = kind := by
        obtain ⟨value, rfl⟩ := List.length_eq_one_iff.mp (by
          simpa using congrArg List.length kinds : result.length = 1)
        exact ⟨value, rfl, by simpa using kinds⟩
      have inside : var.slot.toNat < locals.length :=
        length ▸ houses.spread.inside _ _ found
      simp only [Option.bind_some, cached, Option.map_some, Option.toList_some]
      refine ⟨_, Performs.single (store inside (category.trans has.symm)),
        .set houses.spread found (Set.mem_range_self kind) value, ?_⟩
      intro later stack after same
      have held : later[var.slot.toNat]? = some value :=
        (same _ _ found).trans (List.getElem?_set_self inside)
      exact Performs.single (load held (category.trans has.symm))

end Performs

namespace Machine.Reaches

variable {method : PreparedMethod} {index : Nat} {callers : List Activation}

/-- The callee has been saved again: the monitors are given up, and the saved frame stays. -/
theorem savedAgain (hosts : classes.Hosts) (equipped : plan.Equipped own)
    (attached : plan.Attached locals world current) (mode : current.mode = .saving)
    (records : plan.Records locals world.heap lockState entries) {outer : List Monitor}
    (monitors : world.monitors = ⟨outer ++ monitorsOf entries⟩)
    (length : locals.length = plan.layout.maxLocals.toNat) (roomy : world.heap.Roomy 1)
    {result : List Value} (given : result.length = point.resultKind.toList.length)
    (resolves : method.Resolves) {notSaving : Label} (supply : LabelSupply)
    (has : method.Has index (plan.afterCall point notSaving (plan.exitStored.run supply).1)) :
    ∃ heap, Reaches classes (Scene.within ⟨locals, result, world⟩ method index callers)
        (leave (plan.result.kind.map Value.ofKind) callers,
          { world with heap := heap, monitors := ⟨outer⟩ }) ∧
      world.heap.Grows heap 1 := by
  obtain ⟨locals', heap, releases, _, grows⟩ := @Carries.release classes plan own locals [] entries
    world lockState hosts equipped records length roomy outer monitors supply
  refine ⟨heap, ?_, grows⟩
  have stays := @Performs.staysSaving classes plan own locals result world current hosts equipped
    attached mode notSaving
  have pops := @Performs.popResult classes locals [] world point result given
  rw [List.append_nil] at pops
  rw [MethodPlan.afterCall_eq] at has
  have leaves := (Carries.ofPerforms pops).append releases
  apply (stays.reaches has.left callers).trans
  apply (leaves method _ callers resolves has.right.left).trans
  exact dummyReturn plan.result has.right.right.left

/-- The callee has returned: the frame is restored behind the call, with its result, and the saved
frame is dropped. -/
theorem callReturns (hosts : classes.Hosts) (equipped : plan.Equipped own)
    (houses : plan.layout.Houses own point.frame) (caches : plan.Caches point)
    {before : List Value} (reopened : plan.Reopened point packing before locals)
    (length : before.length = plan.layout.maxLocals.toNat)
    (attached : plan.Attached locals world current) (mode : current.mode ≠ .saving)
    (packs : world.heap.Packs packing plan.layout point.frame content (arguments ++ lower))
    (accepts : point.frame.Accepts classes world.heap content (arguments ++ lower))
    (saved : content plan.layout.context.slot = .context)
    (taken : arguments.length = point.argumentCount) {result : List Value}
    (kinds : result.map Value.kind = point.resultKind.toList) {frame : SavedFrame Value}
    {chain : Chain Value} (unloads : current.chain.unloadCurrent = .ok (frame, chain))
    (resolves : method.Resolves) {notSaving : Label} {release : Code}
    (has : method.Has index (plan.afterCall point notSaving release)) {place : Nat}
    (there : method.code[place]? = some (.label point.resume)) :
    ∃ locals', Reaches classes (Scene.within ⟨locals, result, world⟩ method index callers)
        (Scene.within ⟨locals', result ++ lower, { world with
          context := some { current with chain := chain } }⟩ method place callers) ∧
      plan.Reopened point packing before locals' ∧ point.frame.Restored content locals' ∧
      locals'[plan.layout.context.slot.toNat]? = some .context := by
  -- The result waits in its variable while the operands below it come back.
  obtain ⟨locals₁, stores, keeps, fetches⟩ := @Performs.putAside classes plan own point locals world
    houses caches (reopened.length.trans length) result kinds
  have passed₁ := (keeps.own _ equipped.below).trans attached.passed
  obtain ⟨locals₂, loads, reloads, reopened₂, passed₂⟩ := Performs.restoreBelow houses
    (reopened.keep houses keeps (Set.subset_insert _ _)) length passed₁ packs accepts saved taken
  refine ⟨locals₂, ?_, reopened₂, reloads.loaded, passed₂⟩
  have fetched : Performs classes ((plan.cache? point).map Variable.load).toList
      ⟨locals₂, lower, world⟩ ⟨locals₂, result ++ lower, world⟩ :=
    fetches fun _ _ found =>
      reloads.above houses.slots houses.small (houses.spread.above _ _ found)
  have unloads' : current.unloadCurrent = .ok (frame, { current with chain := chain }) := by
    unfold Context.unloadCurrent
    rw [unloads]
    rfl
  have drops := @Performs.unloadCurrent classes plan own locals₂ (result ++ lower) world current _
    hosts equipped ⟨passed₂, attached.runs⟩ frame unloads'
  rw [MethodPlan.afterCall_eq] at has
  have has' := has.right.right.right
  have rest : Performs classes (.label notSaving :: plan.restoreRest point)
      ⟨locals, result, world⟩
      ⟨locals₂, result ++ lower, { world with
        context := some { current with chain := chain } }⟩ := by
    unfold MethodPlan.restoreRest
    rw [List.append_assoc _ (plan.layout.loadLocals _)]
    exact Performs.cons (label notSaving) (((stores.append loads).append fetched).append drops)
  apply (leavesSaving hosts equipped attached mode resolves has.left has'.left.head).trans
  apply (rest.reaches has'.left callers).trans
  exact ofLeaps Leaps.jump has'.right.head resolves there

/-- The callee has thrown: the frame is restored, the saved frame is dropped with all behind it, and
the exception is thrown on. -/
theorem callThrows (hosts : classes.Hosts) (equipped : plan.Equipped own)
    (houses : plan.layout.Houses own point.frame) {rethrow : Label} {block : TryBlock}
    (guarded : point.kind = .guardedInvoke rethrow block) {var : Variable}
    (aside : plan.layout.varFor? .throwable = some var) (reference : var.kind = .ref)
    {before : List Value} (reopened : plan.Reopened point packing before locals)
    (length : before.length = plan.layout.maxLocals.toNat)
    (attached : plan.Attached locals world current)
    (packs : world.heap.Packs packing plan.layout point.frame content (arguments ++ lower))
    (accepts : point.frame.Accepts classes world.heap content (arguments ++ lower))
    (saved : content plan.layout.context.slot = .context)
    (taken : arguments.length = point.argumentCount) {frame : SavedFrame Value} {position : Nat}
    {object : ObjectRef} (loaded : before[plan.layout.savedFrame.slot.toNat]? = some (.ref object))
    (here : world.heap.get object = .ok (.savedFrame frame (some position)))
    {next : Context Value} (unloads : current.unloadToBefore position = .ok next)
    (resolves : method.Resolves) (exception : ObjectRef)
    (has : method.Has index (plan.restoreHandler point)) {place : Nat}
    (there : method.Has place (plan.rethrow point)) :
    ∃ locals', Reaches classes
        (Scene.within ⟨locals, [.ref exception], world⟩ method index callers)
        (unwind classes world.heap exception
          (⟨method, place + 2, locals', .ref exception :: lower⟩ :: callers),
          { world with context := some next }) ∧
      plan.Reopened point packing before locals' ∧ point.frame.Restored content locals' ∧
      locals'[plan.layout.context.slot.toNat]? = some .context := by
  have inside : var.slot.toNat < locals.length := by
    rw [reopened.length, length]
    exact equipped.spread.inside _ _ aside
  have keeps : plan.layout.Keeps own {.throwable} locals
      (locals.set var.slot.toNat (.ref exception)) :=
    .set equipped.spread aside (Set.mem_singleton _) _
  have passed₁ := (keeps.own _ equipped.below).trans attached.passed
  obtain ⟨locals₂, loads, reloads, reopened₂, passed₂⟩ := Performs.restoreBelow houses
    (reopened.keep houses keeps (by simp)) length passed₁ packs accepts saved taken
  refine ⟨locals₂, ?_, reopened₂, reloads.loaded, passed₂⟩
  have throwable : plan.layout.throwable = some var := aside
  -- The exception is put aside, and the frame is restored.
  have loaded₂ : locals₂[plan.layout.savedFrame.slot.toNat]? = some (.ref object) :=
    (reopened₂.roles .savedFrame _ rfl (by simp)).trans loaded
  have held₂ : locals₂[var.slot.toNat]? = some (.ref exception) := by
    rw [reloads.above houses.slots houses.small (houses.spread.above _ _ aside)]
    exact List.getElem?_set_self inside
  have handles : Performs classes
      (.label block.handler :: var.store :: (plan.layout.loadLocals point.frame.locals ++
        plan.layout.loadBelow point.frame.stack point.argumentCount) ++
        [plan.layout.context.load, plan.layout.savedFrame.load,
          callVirtual Protocol.unloadToBefore])
      ⟨locals, [.ref exception], world⟩
      ⟨locals₂, lower, { world with context := some next }⟩ := by
    apply append
    · apply cons (label block.handler)
      exact cons (storeRef reference inside) loads
    · apply cons (load passed₂ equipped.context.symm)
      apply cons (loadRef equipped.savedFrame loaded₂)
      exact Performs.single (unloadToBefore hosts attached.runs here unloads)
  have code : plan.restoreHandler point =
      (.label block.handler :: var.store :: (plan.layout.loadLocals point.frame.locals ++
        plan.layout.loadBelow point.frame.stack point.argumentCount) ++
        [plan.layout.context.load, plan.layout.savedFrame.load,
          callVirtual Protocol.unloadToBefore]) ++ [.jump rethrow] := by
    simp [MethodPlan.restoreHandler, guarded, PointKind.guard?, throwable]
  -- It is taken from its variable again and thrown.
  have again : plan.rethrow point = [.label rethrow, var.load] ++ [.throw] := by
    simp [MethodPlan.rethrow, guarded, PointKind.guard?, throwable]
  have fetches : Performs classes [.label rethrow, var.load]
      ⟨locals₂, lower, { world with context := some next }⟩
      ⟨locals₂, .ref exception :: lower, { world with context := some next }⟩ := by
    apply cons (label rethrow)
    exact Performs.single (loadRef reference held₂)
  rw [code] at has
  rw [again] at there
  apply (handles.reaches has.left callers).trans
  apply (ofLeaps Leaps.jump has.right.head resolves there.left.head).trans
  apply (fetches.reaches there.left callers).trans
  have throws : (((Execution.execute classes .throw).run
      ⟨method, place + 2, locals₂, .ref exception :: lower⟩).run
      { world with context := some next }) =
        (.error (.thrown exception), { world with context := some next }) := rfl
  exact @ofThrow classes method (place + 2) .throw
    ⟨locals₂, .ref exception :: lower, { world with context := some next }⟩ callers exception _
    there.right.head throws

end Machine.Reaches

end StackCoroutine
