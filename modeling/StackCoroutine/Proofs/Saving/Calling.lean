import StackCoroutine.Proofs.Saving.Suspending

/-!
Execution of the code around a call that can be suspended. The arguments are kept before the call;
if the callee has been saved the frame is saved too, with what lies below the arguments, and else the
method goes on with the result of the call.
-/

namespace StackCoroutine

open SlotLayout (presentKinds)

namespace MethodPlan

variable (plan : MethodPlan) (point : Point)

/-- The arguments of the call go into their arrays and come back onto the stack. -/
def keepArguments : Code :=
  plan.step point "save" ++
    (plan.layout.allocateStack point.frame.stack ++
      plan.layout.saveStack point.frame.stack point.argumentCount) ++
    plan.layout.loadTop point.frame.stack point.argumentCount

/-- The rest of the frame is saved behind the call. -/
def saveRest (release : Code) : Code :=
  popResult point ++
    plan.layout.saveStack (point.frame.stack.drop point.argumentCount)
      (point.frame.stack.length - point.argumentCount) ++
    plan.saveLocalsAndPack point.frame ++ release ++ plan.pushSavedFrame point

theorem saveInvoke_run (supply : LabelSupply) :
    ((plan.saveInvoke point).run supply).1 =
      plan.keepArguments point ++ (point.call :: (plan.branchUnlessSaving point.resume ++
        (plan.saveRest point (plan.exitStored.run supply).1 ++
          (dummyReturn plan.result ++ (plan.rethrow point ++ [.label point.resume]))))) := by
  show _ ++ _ ++ _ ++ _ ++ _ ++ _ ++ _ ++ _ ++ _ ++ (plan.exitStored.run supply).1 ++ _ ++ _ ++ _ ++
    _ = _
  simp only [keepArguments, saveRest, List.append_assoc, List.cons_append, List.nil_append]

end MethodPlan

/-- The saving code behind the call. -/
theorem PreparedMethod.Has.behindCall {method : PreparedMethod} {plan : MethodPlan} {point : Point}
    {index : Nat} {supply : LabelSupply}
    (has : method.Has index ((plan.saveInvoke point).run supply).1) :
    method.Has (index + (plan.keepArguments point).length + 1)
      (plan.branchUnlessSaving point.resume ++
        (plan.saveRest point (plan.exitStored.run supply).1 ++
          (dummyReturn plan.result ++ (plan.rethrow point ++ [.label point.resume])))) := by
  rw [MethodPlan.saveInvoke_run] at has
  exact has.right.tail

namespace Heap.HoldsTop

variable {base early heap later : Heap} {refs : Kind → ObjectRef} {layout : SlotLayout}
  {frame : Frame} {count : Nat} {values : List Value}

theorem earlier (holds : base.HoldsTop heap refs layout frame count values)
    (grows : early.Extends base) : early.HoldsTop heap refs layout frame count values :=
  { holds with new := fun kind listed held found => holds.new kind listed held (grows _ _ found) }

/-- Arrays that are left alone hold what they held. -/
theorem retained (holds : base.HoldsTop heap refs layout frame count values)
    (members : ∀ item ∈ storedStack frame.stack, item.kind ∈ presentKinds frame.stack)
    (retains : Retains ((presentKinds frame.stack).map refs) heap later) :
    base.HoldsTop later refs layout frame count values where
  spans := holds.spans.of_get fun _ listed => retains _ (List.mem_map_of_mem listed)
  injective := holds.injective
  new := holds.new
  holds := holds.holds.of_get fun item member =>
    retains _ (List.mem_map_of_mem (members item (List.mem_of_mem_take member)))

end Heap.HoldsTop

namespace Performs

variable {classes : ClassTable} {plan : MethodPlan} {own : Nat}
  {locals arguments lower : List Value} {world : World}

/-- Before the call its arguments are kept; they are still on the stack. -/
theorem keepArguments (hosts : classes.Hosts) {point : Point}
    (houses : plan.layout.Houses own point.frame)
    (length : locals.length = plan.layout.maxLocals.toNat) (interns : world.heap.Interns)
    (roomy : world.heap.Roomy 6)
    (fits : point.frame.Fits classes world.heap locals (arguments ++ lower))
    (taken : arguments.length = point.argumentCount) :
    ∃ refs locals' heap output, Performs classes (plan.keepArguments point)
        ⟨locals, arguments ++ lower, world⟩
        ⟨locals', arguments ++ lower, { world with heap := heap, output := output }⟩ ∧
      plan.layout.Keeps own (Set.range Role.stackArray) locals locals' ∧
      Pointing plan.layout.stackArray refs (presentKinds point.frame.stack) locals' ∧
      world.heap.Grows heap 6 ∧
      world.heap.HoldsTop heap refs plan.layout point.frame point.argumentCount arguments := by
  have front : (arguments ++ lower).take point.argumentCount = arguments := by
    rw [← taken, List.take_left]
  have entries : List.Forall₂ (fun item value => item.value.kind = some item.kind ∧
      item.value.Fits classes world.heap value)
      ((storedStack point.frame.stack).take point.argumentCount) arguments := by
    have kept := List.forall₂_take point.argumentCount (fits.entries houses)
    rwa [front] at kept
  obtain ⟨heap₁, output, shows, grows₁⟩ := @Performs.marker classes plan locals (arguments ++ lower)
    world hosts interns (roomy.mono (by decide))
    ("save" ++ " " ++ point.kind.name ++ " " ++ toString point.number)
  obtain ⟨refs, locals₂, heap₂, begins, keeps, pointing, grows₂, top⟩ :=
    @beginSaving classes locals lower { world with heap := heap₁, output := output } plan.layout own
      point.frame houses length (grows₁.roomy roomy) point.argumentCount arguments
      (entries.imp fun _ _ here => here.2.kind here.1)
  have grown : world.heap.Grows heap₂ 6 := grows₁.trans grows₂
  have stands : List.Forall₂ (fun item value => item.value.kind = some item.kind ∧
      item.value.Fits classes heap₂ value)
      ((storedStack point.frame.stack).take point.argumentCount) arguments :=
    entries.imp fun _ _ here => ⟨here.1, here.2.later grown.keeps.keepsClasses⟩
  have pushes := @Performs.loadTop classes locals₂ lower arguments
    { world with heap := heap₂, output := output } plan.layout own point.frame refs houses pointing
    point.argumentCount (heldEntries top.holds stands)
  exact ⟨refs, locals₂, heap₂, output, (shows.append begins).append pushes, keeps, pointing, grown,
    top.earlier grows₁.keeps⟩

end Performs

/-- A lock state is none of the arrays, so it is recorded as before when they have been written. -/
theorem MethodPlan.Records.alters {plan : MethodPlan} {locals entries : List Value}
    {heap after : Heap} {lockState : Option ObjectRef} {objects : Set ObjectRef} {count : Nat}
    (records : plan.Records locals heap lockState entries)
    (alters : heap.Alters after objects count)
    (arrays : ∀ object ∈ objects, ∃ element values, heap.get object = .ok (.array element values)) :
    plan.Records locals after lockState entries := by
  refine { records with held := ?_ }
  intro object given
  have found := records.held object given
  apply alters.keeps object _ _ found
  intro member
  obtain ⟨element, values, array⟩ := arrays object member
  cases found.symm.trans array

namespace Carries

open Performs

variable {classes : ClassTable} {plan : MethodPlan} {own : Nat}
  {locals arguments lower entries : List Value} {world : World} {current : Context Value}
  {lockState : Option ObjectRef} {base : Heap} {refs : Kind → ObjectRef}

/-- Once the callee has been saved, the rest of the frame follows; the frame is handed over and the
monitors are given up. -/
theorem saveRest (hosts : classes.Hosts) (equipped : plan.Equipped own) {point : Point}
    (houses : plan.layout.Houses own point.frame)
    (attached : plan.Attached locals world current)
    (records : plan.Records locals world.heap lockState entries) {outer : List Monitor}
    (monitors : world.monitors = ⟨outer ++ monitorsOf entries⟩)
    (length : locals.length = plan.layout.maxLocals.toNat) (interns : world.heap.Interns)
    (roomy : world.heap.Roomy 9)
    (pointing : Pointing plan.layout.stackArray refs (presentKinds point.frame.stack) locals)
    (holds : base.HoldsTop world.heap refs plan.layout point.frame point.argumentCount arguments)
    (older : ∀ object held, base.get object = .ok held → ∃ now, world.heap.get object = .ok now)
    (slots : ∀ item ∈ storedLocals point.frame.locals,
      locals[item.2.toNat]? = some (slotContent locals item.2) ∧
        (slotContent locals item.2).kind = item.1.kind)
    (kinds : List.Forall₂ (fun item value => value.kind = item.kind)
      ((storedStack point.frame.stack).drop point.argumentCount) lower)
    {result : List Value} (given : result.length = point.resultKind.toList.length)
    (supply : LabelSupply) :
    ∃ packing locals' heap frame,
      Carries classes (plan.saveRest point (plan.exitStored.run supply).1)
        ⟨locals, result ++ lower, world⟩
        ⟨locals', [], { world with
          heap := heap
          context := some (current.push frame)
          monitors := ⟨outer⟩ }⟩ ∧
      plan.Saved point lockState base heap packing (slotContent locals) (arguments ++ lower) frame ∧
      world.heap.Alters heap {object | object ∈ packing.objects point.frame} 9 := by
  -- The entries below the arguments go into the arrays that hold the arguments.
  have lowers := @saveLower classes locals [] world plan.layout own point.frame refs houses pointing
    holds.spans point.argumentCount lower kinds
  rw [List.append_nil] at lowers
  let items := ((storedStack point.frame.stack).drop point.argumentCount).zip lower
  let filled := world.heap.fill refs items
  have written : world.heap.Alters filled {object | ∃ item ∈ items, refs item.1.kind = object} 0 :=
    Heap.alters_fill world.heap refs items
  have listed : ∀ item ∈ items, item.1.kind ∈ presentKinds point.frame.stack := fun item member =>
    (houses.stackPlaced _ (List.mem_of_mem_drop (List.of_mem_zip member).1)).1
  have arrays : ∀ object ∈ {object | ∃ item ∈ items, refs item.1.kind = object},
      ∃ element values, world.heap.get object = .ok (.array element values) := by
    rintro object ⟨item, member, rfl⟩
    obtain ⟨values, found, _⟩ := holds.spans _ (listed item member)
    exact ⟨_, values, found⟩
  have records₁ : plan.Records locals filled lockState entries := records.alters written arrays
  have roomy₁ : filled.Roomy 9 := written.roomy roomy
  have complete := holds.complete houses kinds.length_eq
  obtain ⟨packing, locals₂, heap₂, finishes, keeps₂, packed, grows₂, same, new, packs⟩ :=
    @finishSaving classes locals [] (arguments ++ lower) { world with heap := filled } plan.layout own
      point.frame refs houses length (roomy₁.mono (by decide)) slots pointing
      holds.spans.fill complete
  -- The monitors are given up and the frame is handed over.
  have records₂ : plan.Records locals₂ heap₂ lockState entries :=
    records₁.later keeps₂ (by simp) grows₂.keeps
  have roomy₂ : heap₂.Roomy 3 := grows₂.roomy roomy₁
  obtain ⟨locals₃, heap₃, releases, keeps₃, grows₃⟩ := @Carries.release classes plan own locals₂ []
    entries { world with heap := heap₂ } lockState hosts equipped records₂
    (keeps₂.length.trans length) (roomy₂.mono (by decide)) outer monitors supply
  have attached₂ : plan.Attached locals₂ world current := attached.keeps equipped keeps₂ attached.runs
  have attached₃ : plan.Attached locals₃ { world with heap := heap₃, monitors := ⟨outer⟩ } current :=
    attached₂.keeps equipped keeps₃ attached.runs
  have packed₃ : locals₃[plan.layout.container.slot.toNat]? = some (.ref packing.container) :=
    (keeps₃.others .container _ rfl (by simp)).trans packed
  have altered : world.heap.Alters heap₃ _ (0 + 6 + 1) := (written.grow grows₂).grow grows₃
  obtain ⟨heap₄, pushes, grows₄⟩ := @Performs.pushSavedFrame classes plan own locals₃ []
    { world with heap := heap₃, monitors := ⟨outer⟩ } current hosts equipped attached₃
    (altered.interns interns) (grows₃.roomy roomy₂) point packing.container packed₃ lockState
    (records₂.tracked.later keeps₃ (by simp))
  refine ⟨packing, locals₃, heap₄, _, ?_, ⟨rfl, packs.grow (grows₃.trans grows₄).keeps, ?_⟩, ?_⟩
  · have pops := @Performs.popResult classes locals lower world point result given
    exact ((((Carries.ofPerforms pops).append (.ofPerforms lowers)).append
      (.ofPerforms finishes)).append releases).append (.ofPerforms pushes)
  · intro object member held found
    rcases List.mem_append.mp member with first | second
    · obtain ⟨now, there⟩ := older object held found
      obtain ⟨later, kept⟩ : ∃ later, filled.get object = .ok later := by
        by_cases array : ∃ item ∈ items, refs item.1.kind = object
        · obtain ⟨item, itemListed, rfl⟩ := array
          have spans : filled.Spans refs _ _ := holds.spans.fill
          obtain ⟨values, span, _⟩ := spans _ (listed item itemListed)
          exact ⟨_, span⟩
        · exact ⟨now, written.keeps object now array there⟩
      exact new object first later kept
    · obtain ⟨kind, there, rfl⟩ := List.mem_map.mp second
      exact holds.new kind there held (same ▸ found)
  · have alters := altered.grow grows₄
    refine ⟨?_, alters.interns, alters.size⟩
    intro object held outside found
    apply alters.keeps object held _ found
    rintro ⟨item, member, equal⟩
    apply outside
    apply List.mem_append_right
    rw [same, ← equal]
    exact List.mem_map_of_mem (listed item member)

end Carries

namespace Machine.Reaches

open Performs

variable {classes : ClassTable} {plan : MethodPlan} {own : Nat}
  {locals arguments lower entries : List Value} {world : World} {current : Context Value}
  {lockState : Option ObjectRef} {base : Heap} {refs : Kind → ObjectRef} {point : Point}
  {method : PreparedMethod} {index : Nat} {callers : List Activation}

/-- The callee has been saved, so the invocation saves its frame and returns. -/
theorem calleeSaved (hosts : classes.Hosts) (equipped : plan.Equipped own)
    (houses : plan.layout.Houses own point.frame)
    (attached : plan.Attached locals world current) (mode : current.mode = .saving)
    (records : plan.Records locals world.heap lockState entries) {outer : List Monitor}
    (monitors : world.monitors = ⟨outer ++ monitorsOf entries⟩)
    (length : locals.length = plan.layout.maxLocals.toNat) (interns : world.heap.Interns)
    (roomy : world.heap.Roomy 9)
    (pointing : Pointing plan.layout.stackArray refs (presentKinds point.frame.stack) locals)
    (holds : base.HoldsTop world.heap refs plan.layout point.frame point.argumentCount arguments)
    (older : ∀ object held, base.get object = .ok held → ∃ now, world.heap.get object = .ok now)
    (slots : ∀ item ∈ storedLocals point.frame.locals,
      locals[item.2.toNat]? = some (slotContent locals item.2) ∧
        (slotContent locals item.2).kind = item.1.kind)
    (kinds : List.Forall₂ (fun item value => value.kind = item.kind)
      ((storedStack point.frame.stack).drop point.argumentCount) lower)
    {result : List Value} (given : result.length = point.resultKind.toList.length)
    (resolves : method.Resolves) (supply : LabelSupply)
    (has : method.Has index ((plan.saveInvoke point).run supply).1) :
    ∃ packing heap frame,
      Reaches classes
        (Scene.within ⟨locals, result ++ lower, world⟩ method
          (index + (plan.keepArguments point).length + 1) callers)
        (leave (plan.result.kind.map Value.ofKind) callers, { world with
          heap := heap
          context := some (current.push frame)
          monitors := ⟨outer⟩ }) ∧
      plan.Saved point lockState base heap packing (slotContent locals) (arguments ++ lower) frame ∧
      world.heap.Alters heap {object | object ∈ packing.objects point.frame} 9 := by
  obtain ⟨packing, locals', heap, frame, saves, saved, alters⟩ := @Carries.saveRest classes plan own
    locals arguments lower entries world current lockState base refs hosts equipped point houses
    attached records outer monitors length interns roomy pointing holds older slots kinds result
    given supply
  refine ⟨packing, heap, frame, ?_, saved, alters⟩
  have stays := @Performs.staysSaving classes plan own locals (result ++ lower) world current hosts
    equipped attached mode point.resume
  have behind := has.behindCall
  apply (stays.reaches behind.left callers).trans
  apply (saves method _ callers resolves behind.right.left).trans
  exact dummyReturn plan.result behind.right.right.left

/-- The callee has run to its end, and the method goes on with its result. -/
theorem calleeReturned (hosts : classes.Hosts) (equipped : plan.Equipped own)
    (attached : plan.Attached locals world current) (mode : current.mode ≠ .saving)
    {stack : List Value} (resolves : method.Resolves) {supply : LabelSupply}
    (has : method.Has index ((plan.saveInvoke point).run supply).1) {place : Nat}
    (there : method.code[place]? = some (.label point.resume)) :
    Reaches classes
      (Scene.within ⟨locals, stack, world⟩ method
        (index + (plan.keepArguments point).length + 1) callers)
      (Scene.within ⟨locals, stack, world⟩ method place callers) :=
  leavesSaving hosts equipped attached mode resolves has.behindCall.left there

end Machine.Reaches

end StackCoroutine
