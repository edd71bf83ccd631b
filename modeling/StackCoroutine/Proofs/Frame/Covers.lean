import StackCoroutine.Proofs.Frame.Everywhere
import StackCoroutine.Proofs.Frame.Joins
import StackCoroutine.Proofs.Frame.Shape

/-!
What known frames tell of the frames that come to their places: the categories of local slots that a
known frame tells are those of every frame that arrives, and the stacks agree throughout. Known
frames are proper, and a slot that nothing is stored into keeps its category everywhere.
-/

namespace StackCoroutine

/-- All that a frame tells of its local slots. -/
def Frame.facts (frame : Frame) : Set (Nat × Kind) := (Shape.ofFrame frame.kinds).locals

theorem Frame.mem_facts {frame : Frame} {slot : Nat} {kind : Kind} :
    (slot, kind) ∈ frame.facts ↔ (frame.locals[slot]?).bind FrameValue.kind = some kind := by
  show (frame.locals.map FrameValue.kind)[slot]? = some (some kind) ↔ _
  rw [List.getElem?_map]
  cases frame.locals[slot]? <;> simp

/-- The first frame tells no more of the local slots than the second, and as much of the stack. -/
structure Frame.Covers (mine frame : Frame) : Prop where
  facts : mine.facts ⊆ frame.facts
  stack : mine.stack.map FrameValue.kind = frame.stack.map FrameValue.kind

namespace Frame

theorem kinds_of_merge {hierarchy : Hierarchy} {mine other : List FrameValue}
    (same : mine.length = other.length)
    (kept : FrameValue.uninitialized ∉ List.zipWith (FrameValue.merge hierarchy) mine other) :
    mine.map FrameValue.kind = other.map FrameValue.kind := by
  induction mine generalizing other with
  | nil =>
      cases other with
      | nil => rfl
      | cons => simp at same
  | cons first rest ih =>
      cases other with
      | nil => simp at same
      | cons second others =>
          simp only [List.zipWith_cons_cons, List.mem_cons, not_or] at kept
          have heads : first.kind = second.kind := by
            by_contra different
            have lost := FrameValue.merge_kind hierarchy first second
            rw [if_neg different] at lost
            exact kept.1 (FrameValue.kind_eq_none.mp lost).symm
          simp only [List.length_cons, Nat.add_right_cancel_iff] at same
          rw [List.map_cons, List.map_cons, heads, ih same kept.2]

/-- A merge tells of a slot what both frames tell. -/
theorem merge_facts {hierarchy : Hierarchy} {index : Nat} {mine other merged : Frame}
    (joined : merge hierarchy index mine other = .ok merged) :
    merged.facts = mine.facts ∩ other.facts := by
  obtain ⟨_, locals, _, _⟩ := merge_eq_ok.mp joined
  ext ⟨slot, kind⟩
  rw [Set.mem_inter_iff, mem_facts, mem_facts, mem_facts, locals, List.getElem?_zipWith]
  cases mine.locals[slot]? with
  | none => simp
  | some a =>
      cases other.locals[slot]? with
      | none => simp
      | some b =>
          simp only [Option.bind_some, FrameValue.merge_kind]
          by_cases same : a.kind = b.kind
          · simp [same]
          · rw [if_neg same]
            constructor
            · intro impossible
              cases impossible
            · rintro ⟨first, second⟩
              exact absurd (first.trans second.symm) same

theorem merge_stack {hierarchy : Hierarchy} {index : Nat} {mine other merged : Frame}
    (joined : merge hierarchy index mine other = .ok merged) :
    merged.stack.map FrameValue.kind = mine.stack.map FrameValue.kind ∧
      mine.stack.map FrameValue.kind = other.stack.map FrameValue.kind := by
  obtain ⟨same, _, stack, kept⟩ := merge_eq_ok.mp joined
  rw [stack] at kept ⊢
  have kinds := kinds_of_merge same kept
  exact ⟨FrameValue.zipWith_merge_kinds kinds, kinds⟩

theorem covers_joining (hierarchy : Hierarchy) : Analysis.Joining hierarchy Covers where
  refl _ := ⟨Set.Subset.rfl, rfl⟩
  trans first second := ⟨first.facts.trans second.facts, first.stack.trans second.stack⟩
  left joined := ⟨(merge_facts joined).subset.trans Set.inter_subset_left, (merge_stack joined).1⟩
  right joined := ⟨(merge_facts joined).subset.trans Set.inter_subset_right,
    (merge_stack joined).1.trans (merge_stack joined).2⟩

end Frame

namespace Analysis

/-- An instruction that control comes to executes, and known frames cover what it passes on. -/
theorem Sound.passes {setting : Setting} {entry : Frame} {known : Analysis}
    (sound : Sound Frame.Covers setting entry ⟨known, []⟩) {index : Nat} {insn : Insn}
    {before : Frame} (at_index : setting.code[index]? = some insn)
    (found : known.frame? index = some before) :
    ∃ after : Frame, before.kinds.step setting.result insn = some after.kinds ∧
      (∀ label ∈ insn.targets, ∃ target, resolve setting.labels label = .ok target ∧
        Arrived Frame.Covers known target after) ∧
      (insn.isTerminator = false → index + 1 < setting.code.size ∧
        Arrived Frame.Covers known (index + 1) after) ∧
      ∀ handler ∈ setting.handlers, handler.covers index →
        Arrived Frame.Covers known handler.target
          { before with stack := [.reference handler.caught] } := by
  obtain ⟨after, executed, _, branches, falls, handled⟩ := sound.arrivals at_index found
  exact ⟨after, Transfer.execute_step index executed, branches, falls,
    fun handler handles covers => (handled handler handles covers).2⟩

end Analysis

namespace Frame

/-- A long or double of the first frame is followed by the slot it keeps for itself. -/
theorem slotsOf_wide (values : List FrameValue) (count slot : Nat) {kind : Kind}
    (here : ((slotsOf values ++ List.replicate count FrameValue.uninitialized).map FrameValue.kind)[slot]? =
      some (some kind)) (wide : kind.size = 2) :
    ((slotsOf values ++ List.replicate count FrameValue.uninitialized).map FrameValue.kind)[slot + 1]? =
      some none := by
  induction values generalizing slot with
  | nil =>
      obtain ⟨value, member, has⟩ := List.mem_map.mp (List.mem_of_getElem? here)
      have lost : value = .uninitialized := List.eq_of_mem_replicate member
      subst lost
      cases has
  | cons value rest ih =>
      cases slot with
      | zero =>
          have has : value.kind = some kind := by simpa [slotsOf] using here
          have two : value.size = 2 := by simp [FrameValue.size, has, wide]
          simp [slotsOf, two, FrameValue.kind]
      | succ slot =>
          by_cases inside : slot < value.size - 1
          · simp [slotsOf, List.getElem?_append_left, inside, FrameValue.kind] at here
          · have later : ∀ place, value.size - 1 ≤ place →
                ((slotsOf (value :: rest) ++ List.replicate count FrameValue.uninitialized).map
                  FrameValue.kind)[place + 1]? =
                ((slotsOf rest ++ List.replicate count FrameValue.uninitialized).map
                  FrameValue.kind)[place - (value.size - 1)]? := by
              intro place beyond
              simp [slotsOf, List.getElem?_append_right, beyond]
            rw [later slot (by omega)] at here
            rw [later (slot + 1) (by omega)]
            have shifted := ih _ here
            rwa [show slot + 1 - (value.size - 1) = slot - (value.size - 1) + 1 by omega]

theorem entry_proper {owner : String} {method : Method} {frame : Frame}
    (entered : entry owner method = .ok frame) : frame.kinds.Proper := by
  simp only [entry, Outcome.bind_eq_ok] at entered
  obtain ⟨type, typed, entered⟩ := entered
  split at entered
  · exact absurd entered Outcome.throw_bind_ne_ok
  cases Outcome.pure_eq_ok.mp entered
  exact ⟨fun slot kind here wide => slotsOf_wide _ _ slot here wide, by simp [kinds]⟩

theorem merge_proper {hierarchy : Hierarchy} {index : Nat} {mine other merged : Frame}
    (first : mine.kinds.Proper) (second : other.kinds.Proper)
    (joined : merge hierarchy index mine other = .ok merged) : merged.kinds.Proper where
  wide slot kind here wide := by
    have both := (merge_facts joined).subset (show (slot, kind) ∈ merged.facts from here)
    have next := first.wide slot kind both.1 wide
    have next' := second.wide slot kind both.2 wide
    obtain ⟨_, locals, _, _⟩ := merge_eq_ok.mp joined
    simp only [kinds, List.getElem?_map, Option.map_eq_some_iff, locals,
      List.getElem?_zipWith_eq_some] at next next' ⊢
    obtain ⟨a, found, none_kind⟩ := next
    obtain ⟨b, found', none_kind'⟩ := next'
    exact ⟨_, ⟨a, b, found, found', rfl⟩, by
      rw [FrameValue.merge_kind, none_kind, none_kind', if_pos rfl]⟩
  stack lost := by
    obtain ⟨value, member, has⟩ := List.mem_map.mp lost
    obtain ⟨_, _, _, kept⟩ := merge_eq_ok.mp joined
    rw [FrameValue.kind_eq_none.mp has] at member
    exact kept member

end Frame

/-- The instruction puts a value over the slot. -/
def Insn.overwrites (insn : Insn) (slot : Nat) : Bool :=
  match insn with
  | .store kind start => start.toNat ≤ slot && slot < start.toNat + kind.size
  | _ => false

/-- A value that takes one slot stays there until another is put over it. -/
theorem KindFrame.step_keeps {result : Option Kind} {insn : Insn} {before after : KindFrame}
    {slot : Nat} {kind : Kind} (narrow : kind.size = 1) (kept : insn.overwrites slot = false)
    (here : before.locals[slot]? = some (some kind))
    (stepped : before.step result insn = some after) :
    after.locals[slot]? = some (some kind) := by
  cases insn <;> dsimp only [step] at stepped
  case load | increment | pop | dup | dupBelow | swap =>
    split at stepped <;> simp at stepped
    rw [← stepped]
    exact here
  case store stored start =>
    split at stepped
    · split at stepped
      · obtain ⟨locals, written, rfl⟩ := Option.map_eq_some_iff.mp stepped
        simp only [Insn.overwrites, Bool.and_eq_false_iff, decide_eq_false_iff_not] at kept
        have positive := stored.size_pos
        rw [setLocal_getElem? written, if_neg (by omega), if_neg (by omega), if_neg ?_, here]
        rintro ⟨_, wide⟩
        rw [here] at wide
        simp [KindFrame.size, narrow] at wide
      · simp at stepped
    · simp at stepped
  all_goals
    obtain ⟨signature, _, applied⟩ := Option.bind_eq_some_iff.mp stepped
    rw [apply_locals applied]
    exact here

namespace Analysis

/-- Known frames are proper and have all slots of the method. -/
theorem analyze_proper {hierarchy : Hierarchy} {owner : String} {method : Method}
    {known : Analysis} (analyzed : analyze hierarchy owner method = .ok known) :
    Everywhere (fun frame => frame.kinds.Proper ∧ frame.locals.length = method.maxLocals.toNat)
      known := by
  refine analyze_everywhere analyzed ?_ ?_
  · intro entry entered
    obtain ⟨_, _, _, slots, _⟩ := Frame.entry_eq_ok entered
    exact ⟨Frame.entry_proper entered, slots⟩
  · intro labels handlers result _
    refine ⟨?_, ?_, ?_⟩
    · rintro index insn before after _ ⟨proper, slots⟩ executed
      have stepped := Transfer.execute_step index executed
      have same := KindFrame.step_locals stepped
      simp only [Frame.kinds, List.length_map] at same
      exact ⟨KindFrame.step_proper proper stepped, same.trans slots⟩
    · rintro handler before _ ⟨proper, slots⟩
      exact ⟨⟨proper.wide, by simp [Frame.kinds, FrameValue.kind]⟩, slots⟩
    · rintro index mine other merged ⟨proper, slots⟩ ⟨proper', slots'⟩ joined
      refine ⟨Frame.merge_proper proper proper' joined, ?_⟩
      rw [(Frame.merge_eq_ok.mp joined).2.1]
      simp [slots, slots']

/-- A slot that nothing is put over keeps its category in all known frames. -/
theorem analyze_keeps {hierarchy : Hierarchy} {owner : String} {method : Method}
    {known : Analysis} (analyzed : analyze hierarchy owner method = .ok known) {slot : Nat}
    {kind : Kind} (narrow : kind.size = 1)
    (kept : ∀ insn ∈ method.code, insn.overwrites slot = false)
    (starts : ∀ entry, Frame.entry owner method = .ok entry → (slot, kind) ∈ entry.facts) :
    Everywhere (fun frame => (slot, kind) ∈ frame.facts) known := by
  refine analyze_everywhere analyzed starts ?_
  intro labels handlers result _
  refine ⟨?_, fun _ here => here, ?_⟩
  · intro index insn before after at_index here executed
    have inside : insn ∈ method.code := List.mem_of_getElem? (by simpa using at_index)
    exact KindFrame.step_keeps narrow (kept insn inside) here (Transfer.execute_step index executed)
  · intro index mine other merged here there joined
    rw [Frame.merge_facts joined]
    exact ⟨here, there⟩

end Analysis

end StackCoroutine
