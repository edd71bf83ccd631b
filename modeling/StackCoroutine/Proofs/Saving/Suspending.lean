import StackCoroutine.Proofs.Saving.Routines

/-!
Execution of the code for a suspension. The saving code ends in a dummy return, with the frame packed
in objects that nobody else refers to, the saved frame at the cursor of the chain, and the monitors of
the invocation given up. The restoring code makes the frame again behind the suspension.
-/

namespace StackCoroutine

theorem Context.setMode_saving {context : Context Value} (mode : context.mode = .normal) :
    context.setMode .saving = .ok { context with mode := .saving } := by
  unfold Context.setMode
  rw [mode]
  rfl

theorem Context.setMode_normal {context : Context Value} (mode : context.mode = .loading) :
    context.setMode .normal = .ok { context with mode := .normal } := by
  unfold Context.setMode
  rw [mode]
  rfl

/-- A saving routine has come to its end: the frame is packed in new objects and handed over. -/
structure MethodPlan.Saved (plan : MethodPlan) (point : Point) (lockState : Option ObjectRef)
    (base heap : Heap) (packing : Packing) (content : UInt16 → Value) (values : List Value)
    (frame : SavedFrame Value) : Prop where
  frame : frame = ⟨plan.owner, plan.methodId, point.code, .ref packing.container,
    lockState.map .ref⟩
  packs : heap.Packs packing plan.layout point.frame content values
  new : ∀ object ∈ packing.objects point.frame, ∀ held, base.get object ≠ .ok held

theorem MethodPlan.saveSuspend_run (plan : MethodPlan) (point : Point) (supply : LabelSupply) :
    ((plan.saveSuspend point).run supply).1 =
      (plan.step point "save" ++
        (plan.layout.allocateStack point.frame.stack ++
          plan.layout.saveStack point.frame.stack point.frame.stack.length) ++
        plan.saveLocalsAndPack point.frame ++ plan.pushSavedFrame point ++ plan.setMode .saving ++
        (plan.exitStored.run supply).1) ++
      (dummyReturn plan.result ++ [.label point.resume]) := by
  show _ ++ _ ++ _ ++ _ ++ _ ++ _ ++ (plan.exitStored.run supply).1 ++ _ ++ _ = _
  simp only [List.append_assoc]

/-- The restoring code has taken the arrays of a frame out of its container. -/
structure MethodPlan.Reopened (plan : MethodPlan) (point : Point) (packing : Packing)
    (locals locals' : List Value) : Prop where
  length : locals'.length = locals.length
  roles : ∀ role var, plan.layout.varFor? role = some var →
    role ∈ ({.savedFrame, .container, .lockState} : Set Role) →
    locals'[var.slot.toNat]? = locals[var.slot.toNat]?
  localsArrays : Pointing plan.layout.localsArray packing.locals
    (SlotLayout.presentKinds point.frame.locals) locals'
  stackArrays : Pointing plan.layout.stackArray packing.stack
    (SlotLayout.presentKinds point.frame.stack) locals'

theorem MethodPlan.Reopened.hasLockState {plan : MethodPlan} {point : Point}
    {packing : Packing} {locals locals' : List Value} {lockState : Option ObjectRef}
    (reopened : plan.Reopened point packing locals locals')
    (tracked : plan.HasLockState locals lockState) : plan.HasLockState locals' lockState :=
  tracked.of_get fun _ found => reopened.roles _ _ found (by simp)

/-- The code from the label of the restoring code to where the arrays are at hand. -/
def MethodPlan.reopen (plan : MethodPlan) (point : Point) (acquire : Code) : Code :=
  .label point.restore :: plan.step point "restore" ++ acquire ++
    plan.layout.unpack point.frame.locals point.frame.stack

theorem MethodPlan.restoreSuspend_run (plan : MethodPlan) (point : Point) (supply : LabelSupply) :
    ((plan.restoreSuspend point).run supply).1 =
      (plan.reopen point (plan.enterStored.run supply).1 ++
        plan.layout.loadLocals point.frame.locals ++
        (plan.layout.loadTop point.frame.stack point.frame.stack.length ++ [.pop]) ++
        plan.setMode .normal ++ plan.unloadCurrent) ++
      [.jump point.resume] := by
  show _ ++ _ ++ (plan.enterStored.run supply).1 ++ _ ++ _ ++ _ ++ _ ++ _ ++ _ ++ _ = _
  simp only [reopen, List.append_assoc, List.cons_append, List.nil_append]

namespace Carries

open Does Performs

variable {classes : ClassTable} {plan : MethodPlan} {own : Nat} {locals values entries : List Value}
  {world : World} {lockState : Option ObjectRef}

/-- The monitors are taken again and the arrays come out of the container. -/
theorem reopen (hosts : classes.Hosts) (equipped : plan.Equipped own) {point : Point}
    (houses : plan.layout.Houses own point.frame)
    (records : plan.Records locals world.heap lockState entries)
    (length : locals.length = plan.layout.maxLocals.toNat) (interns : world.heap.Interns)
    (roomy : world.heap.Roomy 2) {packing : Packing} {content : UInt16 → Value}
    (packed : locals[plan.layout.container.slot.toNat]? = some (.ref packing.container))
    (packs : world.heap.Packs packing plan.layout point.frame content values)
    (supply : LabelSupply) :
    ∃ locals' heap output,
      Carries classes (plan.reopen point (plan.enterStored.run supply).1) ⟨locals, [], world⟩
        ⟨locals', [], { world with
          heap := heap
          output := output
          monitors := ⟨world.monitors.held ++ monitorsOf entries⟩ }⟩ ∧
      plan.Reopened point packing locals locals' ∧
      (∀ slot < own, locals'[slot]? = locals[slot]?) ∧ world.heap.Grows heap 2 := by
  obtain ⟨heap₁, output, shows, grows₁⟩ := @Performs.marker classes plan locals [] world hosts
    interns (roomy.mono (by decide))
    ("restore" ++ " " ++ point.kind.name ++ " " ++ toString point.number)
  obtain ⟨locals₂, heap₂, acquires, keeps₂, grows₂⟩ := @Carries.acquire classes plan own locals []
    entries { world with heap := heap₁, output := output } lockState hosts equipped
    (records.grow grows₁.keeps) length (grows₁.roomy roomy) supply
  have grown : world.heap.Grows heap₂ 2 := grows₁.trans grows₂
  have packed₂ : locals₂[plan.layout.container.slot.toNat]? = some (.ref packing.container) :=
    (keeps₂.others .container _ rfl (by simp)).trans packed
  obtain ⟨locals₃, unpacks, keeps₃, pointing, stackPointing⟩ := @Performs.unpack classes locals₂ []
    values { world with
      heap := heap₂
      output := output
      monitors := ⟨world.monitors.held ++ monitorsOf entries⟩ }
    plan.layout own point.frame packing content houses (keeps₂.length.trans length) packed₂
    (packs.grow grown.keeps)
  refine ⟨locals₃, heap₂, output, ?_, ⟨keeps₃.length.trans keeps₂.length, ?_, pointing,
    stackPointing⟩, ?_, grown⟩
  · have begins := Carries.ofPerforms (Performs.cons (label point.restore) shows)
    exact (begins.append acquires).append (.ofPerforms unpacks)
  · intro role var found listed
    have other : role ∉ ({.lockCounter, .lockBound} : Set Role) := by
      rcases listed with rfl | rfl | rfl <;> simp
    have noArray : role ∉ Set.range Role.localsArray ∪ Set.range Role.stackArray := by
      rcases listed with rfl | rfl | rfl <;> simp
    exact (keeps₃.others _ _ found noArray).trans (keeps₂.others _ _ found other)
  · intro slot inside
    exact (keeps₃.own _ inside).trans (keeps₂.own _ inside)

end Carries

namespace Machine.Reaches

open Does Performs MethodPlan

variable {classes : ClassTable} {plan : MethodPlan} {own : Nat}
  {locals values entries : List Value} {world : World} {current : Context Value}
  {lockState : Option ObjectRef} {method : PreparedMethod} {index : Nat}
  {callers : List Activation}

/-- Instead of being suspended, the invocation saves its frame and returns. -/
theorem saveSuspend (hosts : classes.Hosts) (equipped : plan.Equipped own) {point : Point}
    (houses : plan.layout.Houses own point.frame)
    (attached : plan.Attached locals world current) (mode : current.mode = .normal)
    (records : plan.Records locals world.heap lockState entries) {outer : List Monitor}
    (monitors : world.monitors = ⟨outer ++ monitorsOf entries⟩)
    (length : locals.length = plan.layout.maxLocals.toNat) (interns : world.heap.Interns)
    (roomy : world.heap.Roomy 15) (fits : point.frame.Fits classes world.heap locals values)
    (resolves : method.Resolves) (supply : LabelSupply)
    (has : method.Has index ((plan.saveSuspend point).run supply).1) :
    ∃ packing heap output frame,
      Reaches classes (Scene.within ⟨locals, values, world⟩ method index callers)
        (leave (plan.result.kind.map Value.ofKind) callers, { world with
          heap := heap
          output := output
          context := some { current.push frame with mode := .saving }
          monitors := ⟨outer⟩ }) ∧
      plan.Saved point lockState world.heap heap packing (slotContent locals) values frame ∧
      world.heap.Grows heap 15 := by
  have kinds := fits.entryKinds houses
  have all := houses.take_storedStack
  -- The frame is saved: first its operand stack, then its locals.
  obtain ⟨heap₁, output, shows, grows₁⟩ := @Performs.marker classes plan locals values
    world hosts interns (roomy.mono (by decide))
    ("save" ++ " " ++ point.kind.name ++ " " ++ toString point.number)
  have roomy₁ : heap₁.Roomy 14 := grows₁.roomy roomy
  obtain ⟨refs, locals₂, heap₂, begins, keeps₂, pointing, grows₂, top⟩ :=
    @beginSaving classes locals [] { world with heap := heap₁, output := output } plan.layout own
      point.frame houses length (roomy₁.mono (by decide)) point.frame.stack.length values
      (all.symm ▸ kinds)
  rw [List.append_nil] at begins
  have roomy₂ : heap₂.Roomy 9 := grows₂.roomy roomy₁
  obtain ⟨packing, locals₃, heap₃, finishes, keeps₃, packed, grows₃, same, new, packs⟩ :=
    @finishSaving classes locals₂ [] values { world with heap := heap₂, output := output }
      plan.layout own point.frame refs houses (keeps₂.length.trans length)
      (roomy₂.mono (by decide)) (fits.keptSlots houses keeps₂) pointing top.spans
      (all ▸ top.holds)
  have roomy₃ : heap₃.Roomy 3 := grows₃.roomy roomy₂
  have keeps : plan.layout.Keeps own (insert .container (Set.range Role.localsArray) ∪
      Set.range Role.stackArray) locals locals₃ :=
    (keeps₂.mono Set.subset_union_right).trans (keeps₃.mono Set.subset_union_left)
  have apart : Role.lockState ∉ insert .container (Set.range Role.localsArray) ∪
      Set.range Role.stackArray := by simp
  have grown₃ : world.heap.Grows heap₃ 12 := (grows₁.trans grows₂).trans grows₃
  have records₃ : plan.Records locals₃ heap₃ lockState entries :=
    records.later keeps apart grown₃.keeps
  -- It is handed over, and the monitors are given up.
  obtain ⟨heap₄, pushes, grows₄⟩ := @Performs.pushSavedFrame classes plan own locals₃ []
    { world with heap := heap₃, output := output } current hosts equipped
    (attached.keeps equipped keeps attached.runs) (grown₃.interns interns)
    (roomy₃.mono (by decide)) point packing.container packed lockState records₃.tracked
  let frame : SavedFrame Value :=
    ⟨plan.owner, plan.methodId, point.code, .ref packing.container, lockState.map .ref⟩
  have attached₄ : plan.Attached locals₃ { world with
      heap := heap₄, output := output, context := some (current.push frame) }
      (current.push frame) := attached.keeps equipped keeps rfl
  have moves : (current.push frame).setMode .saving =
      .ok { current.push frame with mode := .saving } := Context.setMode_saving mode
  have saves := @Performs.setMode classes plan own locals₃ [] _ _ _ hosts equipped attached₄
    .saving moves
  obtain ⟨locals₅, heap₅, releases, _, grows₅⟩ := @Carries.release classes plan own locals₃ []
    entries { world with
      heap := heap₄
      output := output
      context := some { current.push frame with mode := .saving } } lockState hosts equipped
    (records₃.grow grows₄.keeps) (keeps.length.trans length)
    (grows₄.roomy roomy₃) outer monitors supply
  have grown : heap₃.Grows heap₅ 3 := grows₄.trans grows₅
  refine ⟨packing, heap₅, output, frame, ?_, ⟨rfl, ?_, ?_⟩, grown₃.trans grown⟩
  · have carries := ((((Carries.ofPerforms shows).append (.ofPerforms begins)).append
      (.ofPerforms finishes)).append (.ofPerforms pushes)).append (.ofPerforms saves)
    rw [saveSuspend_run] at has
    apply ((carries.append releases) method index callers resolves has.left).trans
    exact dummyReturn plan.result has.right.left
  · apply (packs.congr _).grow grown.keeps
    intro item member
    exact (slotContent_keeps houses keeps₂ item member).2
  · intro object member held found
    rcases List.mem_append.mp member with first | second
    · exact new object first held ((grows₁.trans grows₂).keeps _ _ found)
    · obtain ⟨kind, listed, rfl⟩ := List.mem_map.mp second
      exact top.new kind listed held (same ▸ grows₁.keeps _ _ found)

/-- The frame is made again behind the suspension, but for the receiver of the call. -/
theorem restoreSuspend (hosts : classes.Hosts) (equipped : plan.Equipped own) {point : Point}
    (houses : plan.layout.Houses own point.frame)
    (attached : plan.Attached locals world current) (mode : current.mode = .loading)
    (records : plan.Records locals world.heap lockState entries)
    (length : locals.length = plan.layout.maxLocals.toNat) (interns : world.heap.Interns)
    (roomy : world.heap.Roomy 2) {packing : Packing} {content : UInt16 → Value} {receiver : Value}
    (packed : locals[plan.layout.container.slot.toNat]? = some (.ref packing.container))
    (packs : world.heap.Packs packing plan.layout point.frame content (receiver :: values))
    (accepts : point.frame.Accepts classes world.heap content (receiver :: values))
    (passed : content plan.layout.context.slot = .context) {saved : SavedFrame Value}
    {chain : Chain Value} (unloads : current.chain.unloadCurrent = .ok (saved, chain))
    (resolves : method.Resolves) (supply : LabelSupply)
    (has : method.Has index ((plan.restoreSuspend point).run supply).1) {place : Nat}
    (there : method.code[place]? = some (.label point.resume)) :
    ∃ locals' heap output,
      Reaches classes (Scene.within ⟨locals, [], world⟩ method index callers)
        (Scene.within ⟨locals', values, { world with
          heap := heap
          output := output
          context := some { current with mode := .normal, chain := chain }
          monitors := ⟨world.monitors.held ++ monitorsOf entries⟩ }⟩ method place callers) ∧
      locals'.length = locals.length ∧ point.frame.Restored content locals' ∧
      locals'[plan.layout.context.slot.toNat]? = some .context ∧
      plan.HasLockState locals' lockState ∧ world.heap.Grows heap 2 := by
  -- The monitors are taken again, and the locals and the operand stack come out of their arrays.
  let held : Monitors := ⟨world.monitors.held ++ monitorsOf entries⟩
  obtain ⟨locals₃, heap₂, output, opens, reopened, own₃, grown⟩ := @Carries.reopen classes plan own
    locals (receiver :: values) entries world lockState hosts equipped point houses records length
    interns roomy packing content packed packs supply
  have packs₂ := packs.grow grown.keeps
  have accepts₂ := accepts.later grown.keeps.keepsClasses
  obtain ⟨locals₄, loads, reloads⟩ := @Performs.loadLocals classes locals₃ [] (receiver :: values)
    { world with heap := heap₂, output := output, monitors := held } plan.layout own point.frame
    packing content houses (reopened.length.trans length) reopened.localsArrays packs₂ accepts₂
  have stackPointing : Pointing plan.layout.stackArray packing.stack
      (SlotLayout.presentKinds point.frame.stack) locals₄ := by
    intro kind listed
    obtain ⟨var, _⟩ := houses.stackArrays kind listed
    rw [reloads.above houses.slots houses.small (houses.spread.above _ _ var)]
    exact reopened.stackArrays kind listed
  have pushes := @Performs.loadTop classes locals₄ [] (receiver :: values)
    { world with heap := heap₂, output := output, monitors := held } plan.layout own point.frame
    packing.stack houses stackPointing point.frame.stack.length
    (houses.take_storedStack.symm ▸ Performs.heldEntries packs₂.stack accepts₂.stack)
  rw [List.append_nil] at pushes
  -- The coroutine runs again.
  have passed₄ := reloads.context passed ((own₃ _ equipped.below).trans attached.passed)
  have sets := @Performs.setMode classes plan own locals₄ values
    { world with heap := heap₂, output := output, monitors := held } current _ hosts equipped
    ⟨passed₄, attached.runs⟩ .normal (Context.setMode_normal mode)
  have unloads' : ({ current with mode := .normal } : Context Value).unloadCurrent =
      .ok (saved, { current with mode := .normal, chain := chain }) := by
    unfold Context.unloadCurrent
    rw [unloads]
    rfl
  have drops := @Performs.unloadCurrent classes plan own locals₄ values
    { world with
      heap := heap₂
      output := output
      monitors := held
      context := some { current with mode := .normal } } _ _ hosts equipped ⟨passed₄, rfl⟩ saved
    unloads'
  refine ⟨locals₄, heap₂, output, ?_, reloads.length.trans reopened.length, reloads.loaded, passed₄,
    reloads.hasLockState houses.slots houses.small equipped.spread
      (reopened.hasLockState records.tracked), grown⟩
  have carries := (((opens.append (.ofPerforms loads)).append
    (.ofPerforms (pushes.append (Performs.single pop)))).append (.ofPerforms sets)).append
    (.ofPerforms drops)
  rw [restoreSuspend_run] at has
  apply (carries method index callers resolves has.left).trans
  exact ofLeaps Leaps.jump has.right.head resolves there

end Machine.Reaches

end StackCoroutine
