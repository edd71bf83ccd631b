import StackCoroutine.Instrument.PointCode
import StackCoroutine.Proofs.Instrument.Storage

/-!
Typing of the short sequences that generated code is made of: calls of the protocol, returns, thrown
errors and the loops over the monitors of a frame.
-/

namespace StackCoroutine

/-- The calls of generated code: whether they have a receiver, and what they take, the top first, and give. -/
def hostCalls : List (Bool × MethodRef × Signature) :=
  [(true, Protocol.getMode, ⟨[.ref], some .int⟩),
    (true, Protocol.setMode, ⟨[.int, .ref], none⟩),
    (true, Protocol.loadNext, ⟨[.ref], some .ref⟩),
    (true, Protocol.unloadCurrent, ⟨[.ref], none⟩),
    (true, Protocol.unloadToBefore, ⟨[.ref, .ref], none⟩),
    (true, Protocol.pushNew, ⟨[.ref, .ref], none⟩),
    (true, Protocol.savedFrameInit, ⟨[.ref, .ref, .int, .int, .ref, .ref], none⟩),
    (true, Protocol.getPoint, ⟨[.ref], some .int⟩),
    (true, Protocol.getData, ⟨[.ref], some .ref⟩),
    (true, Protocol.getLockState, ⟨[.ref], some .ref⟩),
    (true, Protocol.lockStateInit, ⟨[.ref], none⟩),
    (true, Protocol.lockStateEnter, ⟨[.ref, .ref], none⟩),
    (true, Protocol.lockStateExit, ⟨[.ref, .ref], none⟩),
    (true, Protocol.lockStateToArray, ⟨[.ref], some .ref⟩),
    (false, Protocol.printLine, ⟨[.ref], none⟩),
    (true, ⟨Names.illegalState, Names.constructor, "(Lstd/String;)V"⟩, ⟨[.ref, .ref], none⟩)]

theorem hostCalls_typed : ∀ call ∈ hostCalls,
    call.2.1.type.toOption.bind (Signature.ofCall call.1) = some call.2.2 := by
  decide +kernel

theorem Signature.ofInsn_hostCall {result : Option Kind} {dispatch : Dispatch} {method : MethodRef}
    {signature : Signature} (listed : (dispatch.hasReceiver, method, signature) ∈ hostCalls) :
    Signature.ofInsn result (.invoke dispatch method) = some signature :=
  hostCalls_typed _ listed

/-- Labels are given the shapes listed for them. -/
def Declares (shapeAt : Label → Option Shape) (declared : List (Label × Option Shape)) : Prop :=
  ∀ pair ∈ declared, shapeAt pair.1 = pair.2

theorem declares_append {shapeAt : Label → Option Shape} {first second : List (Label × Option Shape)} :
    Declares shapeAt (first ++ second) ↔ Declares shapeAt first ∧ Declares shapeAt second := by
  constructor
  · intro all
    exact ⟨fun pair member => all pair (List.mem_append_left _ member),
      fun pair member => all pair (List.mem_append_right _ member)⟩
  · rintro ⟨early, late⟩ pair member
    exact (List.mem_append.mp member).elim (early pair) (late pair)

/-- Labels that were taken from a supply one after the other. -/
structure Between (low high : Nat) (labels : List Label) : Prop where
  ordered : low ≤ high
  distinct : labels.Nodup
  inside : ∀ label ∈ labels, low ≤ label.number.toNat ∧ label.number.toNat < high

namespace Between

variable {low middle high : Nat} {labels others : List Label}

theorem nil (ordered : low ≤ high) : Between low high [] :=
  ⟨ordered, List.nodup_nil, by simp⟩

theorem append (early : Between low middle labels) (late : Between middle high others) :
    Between low high (labels ++ others) where
  ordered := Nat.le_trans early.ordered late.ordered
  distinct := by
    refine List.nodup_append.mpr ⟨early.distinct, late.distinct, ?_⟩
    rintro label here other there rfl
    have below := (early.inside label here).2
    have above := (late.inside label there).1
    omega
  inside := by
    intro label member
    have first := early.ordered
    have second := late.ordered
    rcases List.mem_append.mp member with here | there
    · have range := early.inside label here
      omega
    · have range := late.inside label there
      omega

theorem perm (between : Between low high labels) (same : labels.Perm others) :
    Between low high others where
  ordered := between.ordered
  distinct := same.nodup_iff.mp between.distinct
  inside := fun label member => between.inside label (same.mem_iff.mpr member)

end Between

/-- The number of the next label. -/
def LabelSupply.number (supply : LabelSupply) : Nat := supply.next.toNat

theorem freshLabel_between {supply : LabelSupply} (room : supply.number + 1 < 2 ^ 32) :
    Between supply.number (freshLabel.run supply).2.number [(freshLabel.run supply).1] ∧
      (freshLabel.run supply).2.number = supply.number + 1 := by
  have next : (freshLabel.run supply).2.number = supply.number + 1 := by
    show (supply.next + 1).toNat = supply.next.toNat + 1
    rw [UInt32.toNat_add]
    exact Nat.mod_eq_of_lt room
  have same : (freshLabel.run supply).1.number.toNat = supply.number := rfl
  exact ⟨⟨by omega, by simp, by simp [same, next]⟩, next⟩

namespace LabelSupply

/-- The next labels. -/
def handOut (supply : LabelSupply) : Nat → List Label
  | 0 => []
  | count + 1 => ⟨supply.next⟩ :: handOut ⟨supply.next + 1⟩ count

/-- The supply after a number of labels. -/
def skip (supply : LabelSupply) : Nat → LabelSupply
  | 0 => supply
  | count + 1 => skip ⟨supply.next + 1⟩ count

theorem handOut_between {supply : LabelSupply} {count : Nat}
    (room : supply.number + count < 2 ^ 32) :
    Between supply.number (supply.skip count).number (supply.handOut count) ∧
      (supply.skip count).number = supply.number + count := by
  induction count generalizing supply with
  | zero => exact ⟨.nil (Nat.le_refl _), rfl⟩
  | succ count ih =>
      obtain ⟨first, next⟩ := freshLabel_between (show supply.number + 1 < 2 ^ 32 by omega)
      have following : LabelSupply.number ⟨supply.next + 1⟩ = supply.number + 1 := next
      obtain ⟨others, last⟩ := ih (show LabelSupply.number ⟨supply.next + 1⟩ + count < 2 ^ 32 by
        omega)
      refine ⟨first.append others, ?_⟩
      show (skip ⟨supply.next + 1⟩ count).number = _
      omega

end LabelSupply

namespace Types

variable {scheme : Scheme} {base all facts : Set (Nat × Kind)} {stack : List Kind}
  {plan : MethodPlan} {limit : Nat}

/-- A question to an object of the host. -/
theorem ask {method : MethodRef} (given : Kind)
    (listed : (true, method, ⟨[.ref], some given⟩) ∈ hostCalls) (covered : base ⊆ facts) :
    Types scheme base (some ⟨facts, .ref :: stack⟩) [callVirtual method]
      (some ⟨facts, given :: stack⟩) :=
  unary (Signature.ofInsn_hostCall listed) rfl covered

theorem marker (plan : MethodPlan) (step : String) (covered : base ⊆ facts) :
    Types scheme base (some ⟨facts, stack⟩) (plan.marker step) (some ⟨facts, stack⟩) := by
  unfold MethodPlan.marker
  cases plan.settings.markers with
  | none => exact nil (.refl _)
  | constant =>
      refine cons (push rfl rfl covered) ?_
      exact pop covered
  | stdout =>
      refine cons (push rfl rfl covered) ?_
      exact consume (Signature.ofInsn_hostCall (by simp [hostCalls, Dispatch.hasReceiver])) rfl covered

theorem setMode (placed : plan.layout.Placed limit all) (mode : Mode) (covered : base ⊆ facts)
    (context : plan.layout.context.fact ∈ facts) :
    Types scheme base (some ⟨facts, stack⟩) (plan.setMode mode) (some ⟨facts, stack⟩) := by
  refine cons (load placed.context.1 context covered) ?_
  refine cons (push rfl rfl covered) ?_
  exact consumeTwo (Signature.ofInsn_hostCall (by simp [hostCalls, Dispatch.hasReceiver])) rfl covered

theorem unloadCurrent (placed : plan.layout.Placed limit all) (covered : base ⊆ facts)
    (context : plan.layout.context.fact ∈ facts) :
    Types scheme base (some ⟨facts, stack⟩) plan.unloadCurrent (some ⟨facts, stack⟩) := by
  refine cons (load placed.context.1 context covered) ?_
  exact consume (Signature.ofInsn_hostCall (by simp [hostCalls, Dispatch.hasReceiver])) rfl covered

/-- The mode is looked at with whatever lies on the stack. -/
theorem branchUnlessSaving (placed : plan.layout.Placed limit all) {target : Label}
    (covered : base ⊆ facts) (context : plan.layout.context.fact ∈ facts)
    (below : Below (some ⟨facts, stack⟩) (scheme.shapeAt target)) :
    Types scheme base (some ⟨facts, stack⟩) (plan.branchUnlessSaving target)
      (some ⟨facts, stack⟩) := by
  refine cons (load placed.context.1 context covered) ?_
  refine cons (ask .int (by simp [hostCalls]) covered) ?_
  refine cons (push rfl rfl covered) ?_
  exact branch (show Signature.ofInsn scheme.result _ = some ⟨[.int, .int], none⟩ from rfl) rfl rfl
    covered below

theorem popResult {point : Point} (covered : base ⊆ facts) :
    Types scheme base (some ⟨facts, point.resultKind.toList ++ stack⟩) (MethodPlan.popResult point)
      (some ⟨facts, stack⟩) := by
  unfold MethodPlan.popResult
  cases point.resultKind with
  | none => exact nil (.refl _)
  | some kind => exact pop covered

/-- Behind a return of a value that fits control does not go on. -/
theorem dummyReturn {type : ValueType} (result : scheme.result = type.kind)
    (covered : base ⊆ facts) :
    Types scheme base (some ⟨facts, []⟩) (dummyReturn type) none := by
  have returns : ∀ kind, scheme.result = kind →
      Types scheme base (some ⟨facts, kind.toList⟩) [.return kind] none := by
    intro kind same
    have known : Signature.ofInsn scheme.result (.return kind) = some ⟨kind.toList, none⟩ :=
      if_pos same.symm
    have left : Types scheme base (some ⟨facts, kind.toList ++ []⟩) [.return kind] none :=
      leave known rfl covered (by simp [Insn.targets])
    rwa [List.append_nil] at left
  unfold StackCoroutine.dummyReturn
  rcases kind : type.kind with _ | _ | _ | _ | _ | _
  · exact returns none (result.trans kind)
  all_goals
    refine cons (push rfl rfl covered) ?_
    exact returns (some _) (result.trans kind)

theorem throwIllegalState (message : String) (covered : base ⊆ facts) :
    Types scheme base (some ⟨facts, stack⟩) (throwIllegalState message) none := by
  refine cons (push rfl rfl covered) ?_
  refine cons (dup covered) ?_
  refine cons (push rfl rfl covered) ?_
  refine cons (consumeTwo (Signature.ofInsn_hostCall (by simp [hostCalls, Dispatch.hasReceiver])) rfl covered) ?_
  exact throws covered

theorem pushSavedFrame (placed : plan.layout.Placed limit all) (point : Point)
    (covered : base ⊆ facts) (context : plan.layout.context.fact ∈ facts)
    (container : plan.layout.container.fact ∈ facts) (locks : plan.layout.lockFacts ⊆ facts) :
    Types scheme base (some ⟨facts, stack⟩) (plan.pushSavedFrame point) (some ⟨facts, stack⟩) := by
  have monitors : ∀ {insn below}, (plan.pushSavedFrame point)[7]? = some insn →
      Types scheme base (some ⟨facts, below⟩) [insn] (some ⟨facts, .ref :: below⟩) := by
    intro insn below there
    rcases tracked : plan.layout.locks with _ | tracking
    · have null : insn = .constNull := by
        simpa [MethodPlan.pushSavedFrame, tracked] using there.symm
      rw [null]
      exact push rfl rfl covered
    · have loads : insn = tracking.state.load := by
        simpa [MethodPlan.pushSavedFrame, tracked] using there.symm
      rw [loads]
      exact load (placed.locks tracking tracked).state.1 (locks ⟨tracking, tracked, rfl⟩) covered
  have made : Signature.ofInsn scheme.result (callSpecial Protocol.savedFrameInit) =
      some ⟨[.ref, .ref, .int, .int, .ref, .ref], none⟩ :=
    Signature.ofInsn_hostCall (by simp [hostCalls, Dispatch.hasReceiver])
  refine cons (load placed.context.1 context covered) ?_
  refine cons (push rfl rfl covered) ?_
  refine cons (dup covered) ?_
  refine cons (push rfl rfl covered) ?_
  refine cons (push rfl rfl covered) ?_
  refine cons (push rfl rfl covered) ?_
  refine cons (load placed.container.1 container covered) ?_
  refine cons (monitors rfl) ?_
  refine cons (op made rfl covered) ?_
  exact consumeTwo (Signature.ofInsn_hostCall (by simp [hostCalls, Dispatch.hasReceiver])) rfl covered

theorem createLocks {locks : LockVariables} (usable : Usable scheme.limit all)
    (placed : locks.Placed all) (covered : base ⊆ facts) (within : facts ⊆ all) :
    Types scheme base (some ⟨facts, stack⟩) locks.create
      (some ⟨insert locks.state.fact facts, stack⟩) := by
  refine cons (push rfl rfl covered) ?_
  refine cons (dup covered) ?_
  refine cons (consume (Signature.ofInsn_hostCall (by simp [hostCalls, Dispatch.hasReceiver])) rfl covered) ?_
  exact store usable placed.state.1 placed.state.2 covered within

theorem enterLock {locks : LockVariables} (placed : locks.Placed all) (covered : base ⊆ facts)
    (state : locks.state.fact ∈ facts) :
    Types scheme base (some ⟨facts, .ref :: stack⟩) locks.enter (some ⟨facts, stack⟩) := by
  refine cons (dup covered) ?_
  refine cons (consume rfl rfl covered) ?_
  refine cons (load placed.state.1 state covered) ?_
  refine cons (swap covered) ?_
  exact consumeTwo (Signature.ofInsn_hostCall (by simp [hostCalls, Dispatch.hasReceiver])) rfl covered

theorem exitLock {locks : LockVariables} (placed : locks.Placed all) (covered : base ⊆ facts)
    (state : locks.state.fact ∈ facts) :
    Types scheme base (some ⟨facts, .ref :: stack⟩) locks.exit (some ⟨facts, stack⟩) := by
  refine cons (dup covered) ?_
  refine cons (load placed.state.1 state covered) ?_
  refine cons (swap covered) ?_
  refine cons (consumeTwo (Signature.ofInsn_hostCall (by simp [hostCalls, Dispatch.hasReceiver])) rfl covered) ?_
  exact consume rfl rfl covered

end Types

/-- A generator takes no more labels than told, and its code leaves the stack as it is and takes
nothing from what is known, once its labels have their shapes. -/
def Drafts (limit : Nat) (result : Option Kind) (all facts : Set (Nat × Kind)) (stack : List Kind)
    (most : Nat) (generator : Labelled Code) : Prop :=
  ∀ supply : LabelSupply, supply.number + most < 2 ^ 32 →
    ∃ (more : Set (Nat × Kind)) (fresh : List (Label × Option Shape)), facts ⊆ more ∧ more ⊆ all ∧
      definedLabels (generator.run supply).1 = fresh.map Prod.fst ∧
      Between supply.number (generator.run supply).2.number (fresh.map Prod.fst) ∧
      (generator.run supply).2.number ≤ supply.number + most ∧
      ∀ (shapeAt : Label → Option Shape) (base : Set (Nat × Kind)), Declares shapeAt fresh →
        base ⊆ facts →
        Types ⟨limit, result, shapeAt⟩ base (some ⟨facts, stack⟩) (generator.run supply).1
          (some ⟨more, stack⟩)

variable {plan : MethodPlan} {limit : Nat} {result : Option Kind} {all facts : Set (Nat × Kind)}
  {stack : List Kind}

theorem enterLoop {scheme : Scheme} {base : Set (Nat × Kind)} {locks : LockVariables}
    (usable : Usable scheme.limit all) (placed : locks.Placed all) (covered : base ⊆ facts)
    (within : facts ⊆ all) (state : locks.state.fact ∈ facts) (supply : LabelSupply)
    (top : scheme.shapeAt ⟨supply.next⟩ =
      some ⟨insert locks.counter.fact (insert locks.bound.fact facts), .ref :: stack⟩)
    (done : scheme.shapeAt ⟨supply.next + 1⟩ =
      some ⟨insert locks.counter.fact (insert locks.bound.fact facts), .ref :: stack⟩) :
    Types scheme base (some ⟨facts, stack⟩) (locks.enterStored.run supply).1
      (some ⟨insert locks.counter.fact (insert locks.bound.fact facts), stack⟩) := by
  have bounded : insert locks.bound.fact facts ⊆ all := Set.insert_subset placed.bound.2 within
  have covered' := covered.trans (Set.subset_insert locks.bound.fact facts)
  have covered'' := covered'.trans (Set.subset_insert locks.counter.fact _)
  have counter := Set.mem_insert locks.counter.fact (insert locks.bound.fact facts)
  have bound := Set.mem_insert_of_mem locks.counter.fact (Set.mem_insert locks.bound.fact facts)
  refine Types.cons (Types.load placed.state.1 state covered) ?_
  refine Types.cons (Types.ask .ref (by simp [hostCalls]) covered) ?_
  refine Types.cons (Types.dup covered) ?_
  refine Types.cons (Types.unary rfl rfl covered) ?_
  refine Types.cons (Types.store usable placed.bound.1 placed.bound.2 covered within) ?_
  refine Types.cons (Types.push rfl rfl covered') ?_
  refine Types.cons (Types.store usable placed.counter.1 placed.counter.2 covered' bounded) ?_
  refine Types.cons (Types.label top (.refl _) covered'') ?_
  refine Types.cons (Types.load placed.counter.1 counter covered'') ?_
  refine Types.cons (Types.load placed.bound.1 bound covered'') ?_
  refine Types.cons (Types.branch
    (show Signature.ofInsn scheme.result _ = some ⟨[.int, .int], none⟩ from rfl) rfl rfl covered''
    (done ▸ Below.refl _)) ?_
  refine Types.cons (Types.dup covered'') ?_
  refine Types.cons (Types.load placed.counter.1 counter covered'') ?_
  refine Types.cons (Types.binary rfl rfl covered'') ?_
  refine Types.cons (Types.consume rfl rfl covered'') ?_
  refine Types.cons (Types.increment placed.counter.1 counter covered'') ?_
  refine Types.cons (Types.jump covered'' (top ▸ Below.refl _)) ?_
  refine Types.cons (Types.label done (below_none _) covered'') ?_
  exact Types.pop covered''

theorem exitLoop {scheme : Scheme} {base : Set (Nat × Kind)} {locks : LockVariables}
    (usable : Usable scheme.limit all) (placed : locks.Placed all) (covered : base ⊆ facts)
    (within : facts ⊆ all) (state : locks.state.fact ∈ facts) (supply : LabelSupply)
    (top : scheme.shapeAt ⟨supply.next⟩ =
      some ⟨insert locks.counter.fact facts, .ref :: stack⟩)
    (done : scheme.shapeAt ⟨supply.next + 1⟩ =
      some ⟨insert locks.counter.fact facts, .ref :: stack⟩) :
    Types scheme base (some ⟨facts, stack⟩) (locks.exitStored.run supply).1
      (some ⟨insert locks.counter.fact facts, stack⟩) := by
  have covered' := covered.trans (Set.subset_insert locks.counter.fact facts)
  have counter := Set.mem_insert locks.counter.fact facts
  refine Types.cons (Types.load placed.state.1 state covered) ?_
  refine Types.cons (Types.ask .ref (by simp [hostCalls]) covered) ?_
  refine Types.cons (Types.dup covered) ?_
  refine Types.cons (Types.unary rfl rfl covered) ?_
  refine Types.cons (Types.store usable placed.counter.1 placed.counter.2 covered within) ?_
  refine Types.cons (Types.label top (.refl _) covered') ?_
  refine Types.cons (Types.increment placed.counter.1 counter covered') ?_
  refine Types.cons (Types.load placed.counter.1 counter covered') ?_
  refine Types.cons (Types.branch
    (show Signature.ofInsn scheme.result _ = some ⟨[.int], none⟩ from rfl) rfl rfl covered'
    (done ▸ Below.refl _)) ?_
  refine Types.cons (Types.dup covered') ?_
  refine Types.cons (Types.load placed.counter.1 counter covered') ?_
  refine Types.cons (Types.binary rfl rfl covered') ?_
  refine Types.cons (Types.consume rfl rfl covered') ?_
  refine Types.cons (Types.jump covered' (top ▸ Below.refl _)) ?_
  refine Types.cons (Types.label done (below_none _) covered') ?_
  exact Types.pop covered'

theorem enterStored_drafts (placed : plan.layout.Placed limit all)
    (locks : plan.layout.lockFacts ⊆ facts) (within : facts ⊆ all) :
    Drafts limit result all facts stack 2 plan.enterStored := by
  intro supply room
  unfold MethodPlan.enterStored MethodPlan.withLocks
  rcases tracked : plan.layout.locks with _ | tracking
  · exact ⟨facts, [], Set.Subset.rfl, within, rfl, .nil (Nat.le_refl _), Nat.le_add_right _ _,
      fun _ _ _ _ => Types.nil (.refl _)⟩
  obtain ⟨between, last⟩ := LabelSupply.handOut_between room
  have ready := placed.locks tracking tracked
  have state : tracking.state.fact ∈ facts := locks ⟨tracking, tracked, rfl⟩
  let more := insert tracking.counter.fact (insert tracking.bound.fact facts)
  refine ⟨more, [(⟨supply.next⟩, some ⟨more, .ref :: stack⟩),
    (⟨supply.next + 1⟩, some ⟨more, .ref :: stack⟩)], ?_, ?_, rfl, ?_, Nat.le_of_eq last, ?_⟩
  · exact (Set.subset_insert _ _).trans (Set.subset_insert _ _)
  · exact Set.insert_subset ready.counter.2 (Set.insert_subset ready.bound.2 within)
  · exact between
  · intro shapeAt base declared covered
    exact enterLoop placed.usable ready covered within state supply
      (declared _ List.mem_cons_self) (declared _ (List.mem_cons_of_mem _ List.mem_cons_self))

theorem exitStored_drafts (placed : plan.layout.Placed limit all)
    (locks : plan.layout.lockFacts ⊆ facts) (within : facts ⊆ all) :
    Drafts limit result all facts stack 2 plan.exitStored := by
  intro supply room
  unfold MethodPlan.exitStored MethodPlan.withLocks
  rcases tracked : plan.layout.locks with _ | tracking
  · exact ⟨facts, [], Set.Subset.rfl, within, rfl, .nil (Nat.le_refl _), Nat.le_add_right _ _,
      fun _ _ _ _ => Types.nil (.refl _)⟩
  obtain ⟨between, last⟩ := LabelSupply.handOut_between room
  have ready := placed.locks tracking tracked
  have state : tracking.state.fact ∈ facts := locks ⟨tracking, tracked, rfl⟩
  let more := insert tracking.counter.fact facts
  refine ⟨more, [(⟨supply.next⟩, some ⟨more, .ref :: stack⟩),
    (⟨supply.next + 1⟩, some ⟨more, .ref :: stack⟩)], Set.subset_insert _ _,
    Set.insert_subset ready.counter.2 within, rfl, ?_, Nat.le_of_eq last, ?_⟩
  · exact between
  · intro shapeAt base declared covered
    exact exitLoop placed.usable ready covered within state supply
      (declared _ List.mem_cons_self) (declared _ (List.mem_cons_of_mem _ List.mem_cons_self))

end StackCoroutine
