import StackCoroutine.Proofs.Saving.Calling
import StackCoroutine.Proofs.Saving.Ready
import StackCoroutine.Proofs.Saving.Repeating

/-!
Suspension and resumption of instrumented methods. An invocation that is suspended leaves its frame in
the chain; called again while the coroutine is being loaded, the method goes on behind the suspension
with the same slots, operands and monitors.
-/

namespace StackCoroutine

open SlotLayout (presentKinds)

namespace Chain

variable {V : Type} {chain : Chain V} {frame : SavedFrame V}

theorem loadNext_eq (waits : chain.frames[chain.cursor]? = some frame) :
    chain.loadNext = .ok ((chain.cursor, frame), ⟨chain.frames, chain.cursor + 1⟩) := by
  unfold loadNext
  rw [waits]

theorem unloadCurrent_eq {position : Nat} {frames : List (SavedFrame V)}
    (here : frames[position]? = some frame) :
    (⟨frames, position + 1⟩ : Chain V).unloadCurrent =
      .ok (frame, ⟨frames.eraseIdx position, position⟩) := by
  simp only [unloadCurrent, here]

end Chain

namespace MethodPlan.Ready

variable {plan : MethodPlan} {hierarchy : Hierarchy} {owner : String} {method : Method}
  {contextSlot : UInt16} {known : Analysis} {supply : LabelSupply} {prepared : PreparedMethod}
  {classes : ClassTable} {locals values entries : List Value} {world : World}
  {current : Context Value} {lockState : Option ObjectRef} {callers : List Activation} {point : Point}

/-- Where the code for an instruction begins. -/
def entry (_ : plan.Ready hierarchy owner method contextSlot known supply prepared) (index : Nat) :
    Nat :=
  (plan.parts.run supply).1.entry plan method.code index

/-- The number of a point is its place in the table of the dispatcher. -/
theorem listed (ready : plan.Ready hierarchy owner method contextSlot known supply prepared)
    (member : point ∈ plan.points) :
    plan.points[point.number]? = some point ∧ point.number < 2 ^ 31 := by
  obtain ⟨number, inside, same⟩ := List.mem_iff_getElem.mp member
  have found : plan.points[number]? = some point := by rw [List.getElem?_eq_getElem inside, same]
  have numbered := ready.plans.numbered number point found
  have few := ready.plans.few
  have labels := ready.labels
  unfold Method.HasLabels at labels
  rw [numbered]
  exact ⟨found, by omega⟩

/-- An invocation that is loaded takes its saved frame and comes to the code that restores it. -/
theorem dispatches (ready : plan.Ready hierarchy owner method contextSlot known supply prepared)
    (hosts : classes.Hosts) (member : point ∈ plan.points)
    (attached : plan.Attached locals world current) (mode : current.mode = .loading)
    (interns : world.heap.Interns) (roomy : world.heap.Roomy 3)
    (length : locals.length = plan.layout.maxLocals.toNat) {container : ObjectRef}
    {saved : SavedFrame Value}
    (frame : saved =
      ⟨plan.owner, plan.methodId, point.code, .ref container, lockState.map .ref⟩)
    (waits : current.chain.frames[current.chain.cursor]? = some saved)
    (agree : plan.layout.locks.isSome = lockState.isSome) {place : Nat}
    (there : prepared.code[place]? = some (.label point.restore)) :
    ∃ locals' object heap output,
      Machine.Reaches classes (Scene.within ⟨locals, [], world⟩ prepared 0 callers)
        (Scene.within ⟨locals', [], { world with
          heap := heap
          output := output
          context := some { current with
            chain := ⟨current.chain.frames, current.chain.cursor + 1⟩ } }⟩ prepared place callers) ∧
      plan.layout.Keeps method.maxLocals.toNat {.savedFrame, .container, .lockState} locals
        locals' ∧
      locals'[plan.layout.savedFrame.slot.toNat]? = some (.ref object) ∧
      heap.get object = .ok (.savedFrame saved (some current.chain.cursor)) ∧
      locals'[plan.layout.container.slot.toNat]? = some (.ref container) ∧
      plan.HasLockState locals' lockState ∧ world.heap.Grows heap 3 := by
  obtain ⟨listed, small⟩ := ready.listed member
  obtain ⟨saving, loading, invalidMode, invalidPoint, dispatcher⟩ := plan.dispatcher_run supply
  have has := ready.assembled.dispatcher
  have code : (plan.parts.run supply).1.dispatcher =
      plan.dispatchCode ⟨supply.next⟩ saving loading invalidMode invalidPoint :=
    congrArg Prod.snd dispatcher
  rw [code] at has
  have loads : current.loadNext = .ok ((current.chain.cursor, saved), { current with
      chain := ⟨current.chain.frames, current.chain.cursor + 1⟩ }) := by
    unfold Context.loadNext
    rw [Chain.loadNext_eq waits]
    rfl
  subst frame
  exact Machine.Reaches.dispatchLoading hosts ready.equipped attached mode interns roomy length
    loads rfl rfl agree ready.assembled.resolves has listed small rfl there

/-- The code of a suspension, and the label behind it. -/
theorem suspension (ready : plan.Ready hierarchy owner method contextSlot known supply prepared)
    (member : point ∈ plan.points) (suspend : point.kind = .suspend) :
    ∃ first second place last, prepared.Has (ready.entry point.index)
        ((plan.saveSuspend point).run first).1 ∧
      prepared.Has place ((plan.restoreSuspend point).run second).1 ∧
      prepared.code[last]? = some (.label point.resume) ∧
      ready.entry (point.index + 1) = last + 1 := by
  obtain ⟨first, coded⟩ := ready.assembled.coded point member
  obtain ⟨saves, next, place, restores, _⟩ := ready.assembled.point coded
  simp only [pointCode_suspend plan suspend] at saves next restores
  have behind := saves
  rw [saveSuspend_run] at behind
  refine ⟨first, _, place, _, saves, restores, behind.right.right.head, ?_⟩
  unfold entry
  rw [next, saveSuspend_run]
  simp only [List.length_append, List.length_cons, List.length_nil]
  omega

/-- An invocation that suspends the coroutine saves its frame, gives its monitors up and returns. -/
theorem suspends (ready : plan.Ready hierarchy owner method contextSlot known supply prepared)
    (hosts : classes.Hosts) (member : point ∈ plan.points) (suspend : point.kind = .suspend)
    (attached : plan.Attached locals world current) (mode : current.mode = .normal)
    (records : plan.Records locals world.heap lockState entries) {outer : List Monitor}
    (monitors : world.monitors = ⟨outer ++ monitorsOf entries⟩)
    (length : locals.length = plan.layout.maxLocals.toNat) (interns : world.heap.Interns)
    (roomy : world.heap.Roomy 15) (fits : point.frame.Fits classes world.heap locals values) :
    ∃ packing heap output frame,
      Machine.Reaches classes
        (Scene.within ⟨locals, values, world⟩ prepared (ready.entry point.index) callers)
        (Machine.leave (plan.result.kind.map Value.ofKind) callers, { world with
          heap := heap
          output := output
          context := some { current.push frame with mode := .saving }
          monitors := ⟨outer⟩ }) ∧
      plan.Saved point lockState world.heap heap packing (slotContent locals) values frame ∧
      world.heap.Grows heap 15 := by
  obtain ⟨first, _, _, _, saves, _⟩ := ready.suspension member suspend
  exact Machine.Reaches.saveSuspend hosts ready.equipped (ready.houses member) attached mode records
    monitors length interns roomy fits ready.assembled.resolves first saves

/-- Called again while the coroutine is loaded, the method goes on behind the suspension: the slots
and the operands below the receiver are those of the saved frame, the monitors are held again, and the
saved frame is gone. -/
theorem resumes (ready : plan.Ready hierarchy owner method contextSlot known supply prepared)
    (hosts : classes.Hosts) (member : point ∈ plan.points) (suspend : point.kind = .suspend)
    (attached : plan.Attached locals world current) (mode : current.mode = .loading)
    (lists : world.heap.Lists lockState entries)
    (agree : plan.layout.locks.isSome = lockState.isSome)
    (length : locals.length = plan.layout.maxLocals.toNat) (interns : world.heap.Interns)
    (roomy : world.heap.Roomy 5) {packing : Packing} {content : UInt16 → Value} {receiver : Value}
    (packs : world.heap.Packs packing plan.layout point.frame content (receiver :: values))
    (accepts : point.frame.Accepts classes world.heap content (receiver :: values))
    (passed : content plan.layout.context.slot = .context) {saved : SavedFrame Value}
    (frame : saved =
      ⟨plan.owner, plan.methodId, point.code, .ref packing.container, lockState.map .ref⟩)
    (waits : current.chain.frames[current.chain.cursor]? = some saved) :
    ∃ locals' heap output,
      Machine.Reaches classes (Scene.within ⟨locals, [], world⟩ prepared 0 callers)
        (Scene.within ⟨locals', values, { world with
          heap := heap
          output := output
          context := some { current with
            mode := .normal
            chain := ⟨current.chain.frames.eraseIdx current.chain.cursor, current.chain.cursor⟩ }
          monitors := ⟨world.monitors.held ++ monitorsOf entries⟩ }⟩ prepared
          (ready.entry (point.index + 1)) callers) ∧
      locals'.length = locals.length ∧ point.frame.Restored content locals' ∧
      locals'[plan.layout.context.slot.toNat]? = some .context ∧
      plan.HasLockState locals' lockState ∧ world.heap.Grows heap 5 := by
  -- Two stretches: the dispatcher comes to the code that restores the point, and that code comes to
  -- the label behind the suspension.
  obtain ⟨_, second, place, last, _, restores, resume, next⟩ := ready.suspension member suspend
  have starts := restores
  rw [restoreSuspend_run] at starts
  obtain ⟨locals₁, object, heap₁, output₁, comes, keeps, _, _, packed, tracked, grows₁⟩ :=
    @dispatches plan hierarchy owner method contextSlot known supply prepared classes locals world
      current lockState callers point ready hosts member attached mode interns
      (roomy.mono (by decide)) length packing.container saved frame waits agree place
      starts.left.left.left.left.left.head
  let opened : World := { world with
    heap := heap₁
    output := output₁
    context := some { current with
      chain := ⟨current.chain.frames, current.chain.cursor + 1⟩ } }
  obtain ⟨locals₂, heap₂, output₂, goes, length₂, restored, passed₂, tracked₂, grows₂⟩ :=
    @Machine.Reaches.restoreSuspend classes plan method.maxLocals.toNat locals₁ values entries opened
      _ lockState prepared place callers hosts ready.equipped point (ready.houses member)
      ⟨(keeps.own _ ready.equipped.below).trans attached.passed, rfl⟩ mode
      ⟨lists.grow grows₁.keeps, tracked⟩ (keeps.length.trans length) (grows₁.interns interns)
      (grows₁.roomy roomy) packing content receiver packed (packs.grow grows₁.keeps)
      (accepts.later grows₁.keeps.keepsClasses) passed saved _ (Chain.unloadCurrent_eq waits)
      ready.assembled.resolves second restores last resume
  refine ⟨locals₂, heap₂, output₂, ?_, length₂.trans keeps.length, restored, passed₂, tracked₂,
    grows₁.trans grows₂⟩
  rw [next]
  apply (comes.trans goes).trans
  have steps := Performs.single (@Does.label classes locals₂ values { opened with
    heap := heap₂
    output := output₂
    context := some { current with
      mode := .normal
      chain := ⟨current.chain.frames.eraseIdx current.chain.cursor, current.chain.cursor⟩ }
    monitors := ⟨opened.monitors.held ++ monitorsOf entries⟩ } point.resume)
  apply steps.reaches
  intro place insn found
  cases place with
  | zero => simpa using found ▸ resume
  | succ place => simp at found

end MethodPlan.Ready

end StackCoroutine
