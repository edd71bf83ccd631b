import Mathlib.Data.Set.Insert
import StackCoroutine.Proofs.Frame.Kinds

/-!
What is known of the frames that can come to one place: the categories of some local slots and those
of the whole stack. An instruction takes frames of one shape to frames of another; a shape that says
less holds wherever one that says more does.
-/

namespace StackCoroutine

namespace KindFrame

/-- What a slot holds after a value was put into another. -/
theorem setLocal_getElem? {locals written : List (Option Kind)} {slot : Nat} {kind : Kind}
    (done : setLocal locals slot kind = some written) (other : Nat) :
    written[other]? =
      if other = slot then some (some kind)
      else if kind.size = 2 ∧ other = slot + 1 then some none
      else if other + 1 = slot ∧ locals[other]?.map size = some 2 then some none
      else locals[other]? := by
  unfold setLocal at done
  split at done
  · simp at done
  rename_i fits
  have positive := kind.size_pos
  cases done
  by_cases first : slot = 0
  · subst first
    simp only [Nat.lt_irrefl, decide_false, Bool.false_and, Bool.false_eq_true, if_false]
    grind
  · obtain ⟨before, rfl⟩ := Nat.exists_eq_succ_of_ne_zero first
    have some_slot : decide (0 < before + 1) = true := by simp
    simp only [Nat.succ_eq_add_one, Nat.add_sub_cancel, some_slot, Bool.true_and,
      beq_iff_eq] at fits ⊢
    grind

/-- A long or double keeps the next slot for itself, and every entry of the stack has a category. -/
structure Proper (frame : KindFrame) : Prop where
  wide : ∀ slot kind, frame.locals[slot]? = some (some kind) → kind.size = 2 →
    frame.locals[slot + 1]? = some none
  stack : none ∉ frame.stack

theorem take_mem {kinds : List Kind} {stack rest : List (Option Kind)}
    (taken : take kinds stack = some rest) : ∀ entry ∈ rest, entry ∈ stack := by
  fun_induction take kinds stack generalizing rest with
  | case1 stack =>
      cases taken
      exact fun entry member => member
  | case2 kind kinds stack ih =>
      exact fun entry member => List.mem_cons_of_mem _ (ih taken entry member)
  | case3 => simp at taken
  | case4 => simp at taken

theorem take_eq_append {kinds : List Kind} {stack rest : List (Option Kind)}
    (taken : take kinds stack = some rest) : stack = kinds.map some ++ rest := by
  fun_induction take kinds stack generalizing rest with
  | case1 stack =>
      cases taken
      rfl
  | case2 kind kinds stack ih => rw [ih taken, List.map_cons, List.cons_append]
  | case3 => simp at taken
  | case4 => simp at taken

theorem apply_proper {signature : Signature} {before after : KindFrame} (proper : before.Proper)
    (applied : before.apply signature = some after) : after.Proper := by
  obtain ⟨rest, taken, rfl⟩ := Option.map_eq_some_iff.mp applied
  refine ⟨proper.wide, ?_⟩
  intro lost
  rcases List.mem_append.mp lost with given | below
  · simp at given
  · exact proper.stack (take_mem taken none below)

theorem setLocal_wide {locals written : List (Option Kind)} {slot : Nat} {kind : Kind}
    (proper : ∀ slot kind, locals[slot]? = some (some kind) → kind.size = 2 →
      locals[slot + 1]? = some none)
    (done : setLocal locals slot kind = some written) (place : Nat) (found : Kind)
    (there : written[place]? = some (some found)) (wide : found.size = 2) :
    written[place + 1]? = some none := by
  rw [setLocal_getElem? done] at there ⊢
  by_cases here : place = slot
  · subst place
    simp at there
    subst found
    simp [wide]
  · by_cases cut : place + 1 = slot
    · -- a wide value right below the slot has been cut off
      simp only [here, cut, if_false, true_and] at there
      split at there
      · simp at there
      split at there
      · simp at there
      · rename_i uncut
        rw [there] at uncut
        exact absurd (by simp [size, wide]) uncut
    · simp only [here, cut, if_false, false_and] at there ⊢
      split at there
      · simp at there
      have next := proper place found there wide
      grind

/-- Instructions keep frames proper. -/
theorem step_proper {result : Option Kind} {insn : Insn} {before after : KindFrame}
    (proper : before.Proper) (stepped : before.step result insn = some after) : after.Proper := by
  obtain ⟨locals, stack⟩ := before
  obtain ⟨wide, useful⟩ := proper
  cases insn <;> dsimp only [step] at stepped
  case load | increment =>
    split at stepped <;> simp at stepped
    subst stepped
    exact ⟨wide, by simpa using useful⟩
  case pop | dup | dupBelow | swap =>
    split at stepped <;> simp at stepped
    subst stepped
    refine ⟨wide, ?_⟩
    simp only [List.mem_cons] at useful ⊢
    tauto
  case store kind slot =>
    split at stepped
    · split at stepped
      · obtain ⟨locals, written, rfl⟩ := Option.map_eq_some_iff.mp stepped
        exact ⟨setLocal_wide wide written, fun lost => useful (List.mem_cons_of_mem _ lost)⟩
      · simp at stepped
    · simp at stepped
  all_goals
    obtain ⟨signature, _, applied⟩ := Option.bind_eq_some_iff.mp stepped
    exact apply_proper ⟨wide, useful⟩ applied

/-- An instruction that fits a frame fits one that knows more and has more slots, and does the same
to it. -/
theorem step_mono {result : Option Kind} {insn : Insn} {small big next : KindFrame}
    (stack : big.stack = small.stack)
    (locals : ∀ (slot : Nat) (kind : Kind), small.locals[slot]? = some (some kind) →
      big.locals[slot]? = some (some kind))
    (room : small.locals.length ≤ big.locals.length)
    (stepped : small.step result insn = some next) :
    ∃ after, big.step result insn = some after ∧ after.stack = next.stack ∧
      (∀ (slot : Nat) (kind : Kind), next.locals[slot]? = some (some kind) →
        after.locals[slot]? = some (some kind)) ∧
      ∀ slot : Nat, small.locals.length ≤ slot → after.locals[slot]? = big.locals[slot]? := by
  obtain ⟨few, entries⟩ := small
  obtain ⟨many, entries'⟩ := big
  simp only at stack locals room
  subst entries'
  cases insn <;> dsimp only [step] at stepped ⊢
  case load | increment =>
    split at stepped <;> simp at stepped
    rename_i found
    subst stepped
    rw [if_pos (locals _ _ found)]
    exact ⟨_, rfl, rfl, locals, fun _ _ => rfl⟩
  case pop | dup | dupBelow | swap =>
    split at stepped <;> simp at stepped
    subst stepped
    exact ⟨_, rfl, rfl, locals, fun _ _ => rfl⟩
  -- A value of two slots overwrites its neighbours in both frames alike.
  case store kind slot =>
    split at stepped
    · split at stepped
      · rename_i fits
        obtain ⟨written, done, rfl⟩ := Option.map_eq_some_iff.mp stepped
        have inside : slot.toNat + kind.size ≤ few.length := by
          unfold setLocal at done
          split at done
          · simp at done
          · omega
        obtain ⟨more, done'⟩ : ∃ more, setLocal many slot.toNat kind = some more := by
          unfold setLocal
          rw [if_neg (by omega)]
          exact ⟨_, rfl⟩
        refine ⟨⟨more, _⟩, by rw [if_pos fits, done']; rfl, rfl, ?_, ?_⟩
        · intro place found there
          simp only [setLocal_getElem? done, setLocal_getElem? done'] at there ⊢
          have known := locals place
          grind
        · intro place outside
          have positive := kind.size_pos
          simp only [setLocal_getElem? done']
          grind
      · simp at stepped
    · simp at stepped
  all_goals
    obtain ⟨signature, known, applied⟩ := Option.bind_eq_some_iff.mp stepped
    obtain ⟨rest, taken, rfl⟩ := Option.map_eq_some_iff.mp applied
    refine ⟨⟨many, signature.gives.toList.map some ++ rest⟩, ?_, rfl, locals, fun _ _ => rfl⟩
    rw [known]
    simp [apply, taken]

end KindFrame

/-- The categories of some local slots and of the stack, its top first. -/
structure Shape where
  locals : Set (Nat × Kind)
  stack : List Kind

namespace Shape

/-- A frame is as the shape tells. -/
def Holds (shape : Shape) (frame : KindFrame) : Prop :=
  (∀ slot kind, (slot, kind) ∈ shape.locals → frame.locals[slot]? = some (some kind)) ∧
    frame.stack = shape.stack.map some

/-- The first shape tells as much as the second. -/
def Implies (strong weak : Shape) : Prop :=
  weak.locals ⊆ strong.locals ∧ strong.stack = weak.stack

theorem Implies.refl (shape : Shape) : shape.Implies shape := ⟨Set.Subset.rfl, rfl⟩

theorem Implies.trans {first second third : Shape} (early : first.Implies second)
    (late : second.Implies third) : first.Implies third :=
  ⟨late.1.trans early.1, early.2.trans late.2⟩

theorem Holds.weaken {strong weak : Shape} {frame : KindFrame} (holds : strong.Holds frame)
    (implies : strong.Implies weak) : weak.Holds frame :=
  ⟨fun slot kind member => holds.1 slot kind (implies.1 member), by rw [holds.2, implies.2]⟩

/-- All that a frame tells by itself. -/
def ofFrame (frame : KindFrame) : Shape :=
  ⟨{fact | frame.locals[fact.1]? = some (some fact.2)}, frame.stack.filterMap id⟩

theorem ofFrame_stack {frame : KindFrame} (useful : none ∉ frame.stack) :
    frame.stack = (ofFrame frame).stack.map some := by
  obtain ⟨locals, stack⟩ := frame
  show stack = (stack.filterMap id).map some
  replace useful : none ∉ stack := useful
  induction stack with
  | nil => rfl
  | cons entry rest ih =>
      cases entry with
      | none => simp at useful
      | some kind =>
          have tail : rest = (rest.filterMap id).map some := ih (by simpa using useful)
          show some kind :: rest = some kind :: (rest.filterMap id).map some
          rw [← tail]

/-- The instruction takes every frame of one shape, with the given number of slots, to a frame of the
other. -/
def Executes (limit : Nat) (result : Option Kind) (insn : Insn) (before after : Shape) : Prop :=
  ∀ frame : KindFrame, frame.locals.length = limit → before.Holds frame →
    ∃ next, frame.step result insn = some next ∧ after.Holds next

variable {limit : Nat} {result : Option Kind} {facts : Set (Nat × Kind)} {stack : List Kind}

theorem Executes.weaken {insn : Insn} {before after weak : Shape}
    (executes : Executes limit result insn before after) (implies : after.Implies weak) :
    Executes limit result insn before weak := by
  intro frame length holds
  obtain ⟨next, stepped, holds'⟩ := executes frame length holds
  exact ⟨next, stepped, holds'.weaken implies⟩

theorem step_eq_apply {insn : Insn} {signature : Signature} {frame : KindFrame}
    (known : Signature.ofInsn result insn = some signature) :
    frame.step result insn = frame.apply signature := by
  cases insn <;> dsimp only [KindFrame.step]
  case load | store | increment | pop | dup | dupBelow | swap =>
    exact absurd known (by simp [Signature.ofInsn])
  all_goals
    rw [known]
    rfl

theorem take_append (kinds : List Kind) (rest : List (Option Kind)) :
    KindFrame.take kinds (kinds.map some ++ rest) = some rest := by
  induction kinds with
  | nil => rfl
  | cons kind kinds ih => simp [KindFrame.take, ih]

theorem executes_signature {insn : Insn} {signature : Signature}
    (known : Signature.ofInsn result insn = some signature) :
    Executes limit result insn ⟨facts, signature.takes ++ stack⟩
      ⟨facts, signature.gives.toList ++ stack⟩ := by
  intro frame _ holds
  obtain ⟨locals, entries⟩ := frame
  obtain ⟨known_locals, rfl⟩ := holds
  refine ⟨⟨locals, signature.gives.toList.map some ++ stack.map some⟩, ?_, known_locals, by simp⟩
  rw [step_eq_apply known, KindFrame.apply, List.map_append, take_append]
  rfl

/-- An instruction with a signature takes the top of the stack and leaves what is below. -/
theorem step_signature {insn : Insn} {signature : Signature} {before after : KindFrame}
    (known : Signature.ofInsn result insn = some signature)
    (stepped : before.step result insn = some after) :
    ∃ below, (ofFrame before).stack = signature.takes ++ below ∧
      (ofFrame after).stack = signature.gives.toList ++ below ∧
      (ofFrame after).locals = (ofFrame before).locals := by
  rw [step_eq_apply known] at stepped
  obtain ⟨rest, taken, rfl⟩ := Option.map_eq_some_iff.mp stepped
  have stack := KindFrame.take_eq_append taken
  refine ⟨rest.filterMap id, ?_, ?_, rfl⟩
  · simp [ofFrame, stack, List.filterMap_map]
  · cases signature.gives <;> simp [ofFrame]

theorem executes_load {kind : Kind} {slot : UInt16} (known : (slot.toNat, kind) ∈ facts) :
    Executes limit result (.load kind slot) ⟨facts, stack⟩ ⟨facts, kind :: stack⟩ := by
  intro frame _ holds
  refine ⟨⟨frame.locals, some kind :: frame.stack⟩, ?_, holds.1, by simp [holds.2]⟩
  exact if_pos (holds.1 _ _ known)

theorem executes_increment {slot : UInt16} {amount : Int32} (known : (slot.toNat, .int) ∈ facts) :
    Executes limit result (.increment slot amount) ⟨facts, stack⟩ ⟨facts, stack⟩ := by
  intro frame _ holds
  exact ⟨frame, if_pos (holds.1 _ _ known), holds⟩

theorem executes_pop {kind : Kind} :
    Executes limit result .pop ⟨facts, kind :: stack⟩ ⟨facts, stack⟩ := by
  intro frame _ holds
  obtain ⟨locals, entries⟩ := frame
  obtain ⟨known, rfl⟩ := holds
  exact ⟨⟨locals, stack.map some⟩, rfl, known, rfl⟩

theorem executes_dup {kind : Kind} :
    Executes limit result .dup ⟨facts, kind :: stack⟩ ⟨facts, kind :: kind :: stack⟩ := by
  intro frame _ holds
  obtain ⟨locals, entries⟩ := frame
  obtain ⟨known, rfl⟩ := holds
  exact ⟨⟨locals, some kind :: some kind :: stack.map some⟩, rfl, known, rfl⟩

theorem executes_swap {top second : Kind} :
    Executes limit result .swap ⟨facts, top :: second :: stack⟩
      ⟨facts, second :: top :: stack⟩ := by
  intro frame _ holds
  obtain ⟨locals, entries⟩ := frame
  obtain ⟨known, rfl⟩ := holds
  exact ⟨⟨locals, some second :: some top :: stack.map some⟩, rfl, known, rfl⟩

end Shape

/-- Two values in local slots do not get into each other's way. -/
def Apart (first second : Nat × Kind) : Prop :=
  first.1 + first.2.size ≤ second.1 ∨ second.1 + second.2.size ≤ first.1

/-- All the values have their slots for themselves. -/
def Coherent (facts : Set (Nat × Kind)) : Prop :=
  ∀ first ∈ facts, ∀ second ∈ facts, first = second ∨ Apart first second

namespace Shape

variable {limit : Nat} {result : Option Kind} {facts : Set (Nat × Kind)} {stack : List Kind}

/-- A value put into a slot leaves those alone that are apart from it. -/
theorem executes_store {kind : Kind} {slot : UInt16} (room : slot.toNat + kind.size ≤ limit)
    (apart : ∀ fact ∈ facts, fact = (slot.toNat, kind) ∨ Apart fact (slot.toNat, kind)) :
    Executes limit result (.store kind slot) ⟨facts, kind :: stack⟩
      ⟨insert (slot.toNat, kind) facts, stack⟩ := by
  intro frame length holds
  obtain ⟨locals, entries⟩ := frame
  obtain ⟨known, rfl⟩ := holds
  simp only at length known
  obtain ⟨written, done⟩ : ∃ written, KindFrame.setLocal locals slot.toNat kind = some written := by
    unfold KindFrame.setLocal
    rw [if_neg (by omega)]
    exact ⟨_, rfl⟩
  refine ⟨⟨written, stack.map some⟩, ?_, ?_, rfl⟩
  · show (if kind = kind then (KindFrame.setLocal locals slot.toNat kind).map
      (KindFrame.mk · (stack.map some)) else none) = _
    rw [if_pos rfl, done]
    rfl
  · intro place found member
    simp only [KindFrame.setLocal_getElem? done]
    rcases Set.mem_insert_iff.mp member with same | old
    · simp only [Prod.mk.injEq] at same
      rw [if_pos same.1, same.2]
    · have there := known place found old
      have positive := kind.size_pos
      have positive' := found.size_pos
      rcases apart _ old with same | below | above
      · simp only [Prod.mk.injEq] at same
        rw [if_pos same.1, same.2]
      · simp only at below
        have narrow : place + 1 = slot.toNat → found.size = 1 := by omega
        rw [if_neg (by omega), if_neg (by omega), if_neg ?_, there]
        rintro ⟨next, wide⟩
        rw [there] at wide
        simp [KindFrame.size, narrow next] at wide
      · simp only at above
        rw [if_neg (by omega), if_neg (by omega), if_neg (by omega), there]

/-- What an instruction does to a frame it does to all frames that agree with it, also where they
have further slots. -/
theorem executes_ofFrame {insn : Insn} {before after : KindFrame} (more : Set (Nat × Kind))
    (proper : before.Proper) (room : before.locals.length ≤ limit)
    (outside : ∀ fact ∈ more, before.locals.length ≤ fact.1)
    (stepped : before.step result insn = some after) :
    Executes limit result insn ⟨(ofFrame before).locals ∪ more, (ofFrame before).stack⟩
      ⟨(ofFrame after).locals ∪ more, (ofFrame after).stack⟩ := by
  intro frame length holds
  have stack : frame.stack = before.stack := by
    rw [ofFrame_stack proper.stack]
    exact holds.2
  obtain ⟨next, stepped', height, kept, beyond⟩ := KindFrame.step_mono stack
    (fun slot kind known => holds.1 slot kind (Or.inl known)) (length ▸ room) stepped
  refine ⟨next, stepped', ?_, ?_⟩
  · intro slot kind member
    rcases member with own | extra
    · exact kept slot kind own
    · rw [beyond slot (outside _ extra)]
      exact holds.1 slot kind (Or.inr extra)
  · rw [height]
    exact ofFrame_stack (KindFrame.step_proper proper stepped).stack

end Shape

end StackCoroutine
