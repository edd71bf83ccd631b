import Mathlib.Data.Finset.Card
import StackCoroutine.Proofs.Frame.Everywhere
import StackCoroutine.Proofs.Frame.Naming

/-!
The frame analysis ends. A merge leaves a value as it is or lowers its rank: nothing is below the
uninitialized value, null is above all references, and of two references the one with fewer names
above it is lower. An instruction that has no frame yet counts more than any frame can, so every
visit lowers the potential of what is known together with the instructions that wait.
-/

namespace StackCoroutine

variable {hierarchy : Hierarchy} {names : List String}

open Classical in
/-- How many of the names lie strictly above one. -/
noncomputable def Hierarchy.namesAbove (hierarchy : Hierarchy) (names : List String)
    (name : String) : Nat :=
  (names.toFinset.filter fun other => Relation.TransGen hierarchy.Rises name other).card

open Classical in
theorem Hierarchy.namesAbove_le (name : String) :
    hierarchy.namesAbove names name ≤ names.length :=
  (Finset.card_filter_le _ _).trans (List.toFinset_card_le names)

theorem Hierarchy.namesAbove_lt (acyclic : hierarchy.Acyclic) {low high : String}
    (known : high ∈ names) (rises : hierarchy.Rises low high) :
    hierarchy.namesAbove names high < hierarchy.namesAbove names low := by
  classical
  apply Finset.card_lt_card
  rw [Finset.ssubset_iff_of_subset]
  · refine ⟨high, ?_, ?_⟩
    · simpa [known] using Relation.TransGen.single rises
    · simpa [known] using rises_acyclic acyclic high
  · intro other member
    simp only [Finset.mem_filter] at member ⊢
    exact ⟨member.1, member.2.head rises⟩

namespace FrameValue

/-- How often merges can still change a value, at most. -/
noncomputable def rank (hierarchy : Hierarchy) (names : List String) : FrameValue → Nat
  | .uninitialized => 0
  | .reference name => hierarchy.namesAbove names name + 1
  | .null => names.length + 2
  | .int | .float | .long | .double => 1

theorem rank_le (value : FrameValue) : value.rank hierarchy names ≤ names.length + 2 := by
  cases value with
  | reference name =>
      have bounded : hierarchy.namesAbove names name ≤ names.length := hierarchy.namesAbove_le name
      simp only [rank]
      omega
  | _ => simp [rank]

theorem rank_pos {value : FrameValue} (useful : value ≠ .uninitialized) :
    0 < value.rank hierarchy names := by
  cases value <;> simp_all [rank]

theorem merge_rank (acyclic : hierarchy.Acyclic) (whole : Universe hierarchy names)
    {a b : FrameValue} (first : a.Named names) (second : b.Named names) :
    merge hierarchy a b = a ∨
      (merge hierarchy a b).rank hierarchy names < a.rank hierarchy names := by
  have merged := merge_named whole first second
  unfold merge at merged ⊢
  split
  · exact Or.inl rfl
  rename_i different
  simp only [if_neg different] at merged
  split
  · rename_i name
    refine Or.inr ?_
    have bounded : hierarchy.namesAbove names name ≤ names.length := hierarchy.namesAbove_le name
    simp only [rank]
    omega
  · exact Or.inl rfl
  · rename_i x y
    rcases Hierarchy.commonSuper_rises acyclic x y with same | rises
    · exact Or.inl (by rw [same])
    · have lower := Hierarchy.namesAbove_lt acyclic (named_reference.mp merged) rises
      exact Or.inr (Nat.succ_lt_succ lower)
  · by_cases useful : a = .uninitialized
    · exact Or.inl useful.symm
    · exact Or.inr (rank_pos useful)

end FrameValue

/-- How often merges can still change a list of values, at most. -/
noncomputable def ranks (hierarchy : Hierarchy) (names : List String)
    (values : List FrameValue) : Nat :=
  (values.map (FrameValue.rank hierarchy names)).sum

theorem ranks_le (values : List FrameValue) :
    ranks hierarchy names values ≤ values.length * (names.length + 2) := by
  induction values with
  | nil => simp [ranks]
  | cons value rest ih =>
      have first : value.rank hierarchy names ≤ names.length + 2 := value.rank_le
      simp only [ranks, List.map_cons, List.sum_cons, List.length_cons, Nat.add_mul] at ih ⊢
      omega

theorem zipWith_merge_ranks (acyclic : hierarchy.Acyclic) (whole : Universe hierarchy names)
    {mine other : List FrameValue} (same : mine.length = other.length)
    (first : ∀ value ∈ mine, value.Named names) (second : ∀ value ∈ other, value.Named names) :
    List.zipWith (FrameValue.merge hierarchy) mine other = mine ∨
      ranks hierarchy names (List.zipWith (FrameValue.merge hierarchy) mine other) <
        ranks hierarchy names mine := by
  induction mine generalizing other with
  | nil => exact Or.inl rfl
  | cons a rest ih =>
      cases other with
      | nil => simp at same
      | cons b others =>
          have head := FrameValue.merge_rank acyclic whole (first a List.mem_cons_self)
            (second b List.mem_cons_self)
          have tail := ih (by simpa using same)
            (fun value member => first value (List.mem_cons_of_mem _ member))
            (fun value member => second value (List.mem_cons_of_mem _ member))
          simp only [ranks, List.zipWith_cons_cons, List.map_cons, List.sum_cons,
            List.cons.injEq] at tail ⊢
          rcases head with kept | lower <;> rcases tail with kept' | lower'
          · exact Or.inl ⟨kept, kept'⟩
          · rw [kept]
            omega
          · rw [kept']
            omega
          · omega

noncomputable def Frame.rank (hierarchy : Hierarchy) (names : List String) (frame : Frame) : Nat :=
  ranks hierarchy names frame.locals + ranks hierarchy names frame.stack

theorem Frame.merge_rank (acyclic : hierarchy.Acyclic) (whole : Universe hierarchy names)
    {index : Nat} {mine other merged : Frame} (slots : mine.locals.length = other.locals.length)
    (first : mine.Named names) (second : other.Named names)
    (joined : Frame.merge hierarchy index mine other = .ok merged) :
    merged = mine ∨ merged.rank hierarchy names < mine.rank hierarchy names := by
  obtain ⟨height, locals, stack, _⟩ := merge_eq_ok.mp joined
  have below := zipWith_merge_ranks acyclic whole slots first.locals second.locals
  have above := zipWith_merge_ranks acyclic whole height first.stack second.stack
  rw [← locals] at below
  rw [← stack] at above
  obtain ⟨merged_locals, merged_stack⟩ := merged
  obtain ⟨mine_locals, mine_stack⟩ := mine
  simp only [rank, Frame.mk.injEq] at below above ⊢
  rcases below with kept | lower <;> rcases above with kept' | lower'
  · exact Or.inl ⟨kept, kept'⟩
  · rw [kept]
    omega
  · rw [kept']
    omega
  · omega

theorem sum_map_set {α : Type} (values : List α) {index : Nat} (inside : index < values.length)
    (new : α) (weight : α → Nat) :
    ((values.set index new).map weight).sum + weight values[index] =
      (values.map weight).sum + weight new := by
  induction values generalizing index with
  | nil => simp at inside
  | cons first rest ih =>
      cases index with
      | zero =>
          simp
          omega
      | succ index =>
          have tail := ih (show index < rest.length by simpa using inside)
          simp only [List.set_cons_succ, List.map_cons, List.sum_cons, List.getElem_cons_succ]
          omega

namespace Analysis

/-- What an instruction counts: more than any frame as long as it has none. -/
noncomputable def weight (hierarchy : Hierarchy) (names : List String) (most : Nat) :
    Option Frame → Nat
  | none => most + 1
  | some frame => frame.rank hierarchy names

/-- How many visits are still possible, at most. -/
noncomputable def potential (hierarchy : Hierarchy) (names : List String) (most : Nat)
    (progress : Progress) : Nat :=
  (progress.known.frames.toList.map (weight hierarchy names most)).sum + progress.waiting.length

/-- Instructions that have a frame. -/
def knownCount (progress : Progress) : Nat := progress.known.frames.toList.countP Option.isSome

theorem knownCount_le (progress : Progress) : knownCount progress ≤ progress.known.frames.size := by
  unfold knownCount
  simpa using List.countP_le_length (p := Option.isSome) (l := progress.known.frames.toList)

theorem frame?_eq_getElem {known : Analysis} {index : Nat}
    (inside : index < known.frames.toList.length) :
    known.frame? index = known.frames.toList[index] := by
  have listed : index < known.frames.size := by simpa using inside
  simp [frame?, listed]

/-- A record changes the frame of its instruction and nothing else. -/
theorem record_frames (progress : Progress) (index : Nat) (frame : Frame) (height : Nat) :
    (record progress index frame height).known.frames =
        progress.known.frames.setIfInBounds index (some frame) ∧
      (record progress index frame height).waiting.length ≤ progress.waiting.length + 1 ∧
      (progress.known.frame? index = some frame →
        (record progress index frame height).waiting = progress.waiting) := by
  unfold record
  by_cases same : progress.known.frame? index = some frame
  · rw [if_pos same]
    refine ⟨?_, Nat.le_succ _, fun _ => rfl⟩
    have inside := frame?_lt same
    rw [frame?_eq_getElem inside] at same
    apply Array.toList_inj.mp
    rw [Array.toList_setIfInBounds, ← same, List.set_getElem_self]
  · rw [if_neg same]
    refine ⟨rfl, ?_, fun other => absurd other same⟩
    split <;> simp

theorem record_potential {most : Nat} {progress : Progress} {index : Nat} {frame : Frame}
    (height : Nat) (inside : index < progress.known.frames.size)
    (origin : progress.known.frame? index = none ∧ frame.rank hierarchy names ≤ most ∨
      ∃ mine, progress.known.frame? index = some mine ∧
        (frame = mine ∨ frame.rank hierarchy names < mine.rank hierarchy names)) :
    potential hierarchy names most (record progress index frame height) ≤
      potential hierarchy names most progress := by
  obtain ⟨frames, longer, unchanged⟩ := record_frames progress index frame height
  have changed := sum_map_set progress.known.frames.toList (by simpa using inside)
    (some frame) (weight hierarchy names most)
  rw [← frame?_eq_getElem inside] at changed
  simp only [potential, frames, Array.toList_setIfInBounds]
  simp only [weight] at changed
  rcases origin with ⟨unknown, low⟩ | ⟨mine, known, rfl | lower⟩
  · simp only [unknown] at changed
    omega
  · rw [unchanged known]
    simp only [known] at changed
    omega
  · simp only [known] at changed
    omega

theorem record_count {progress : Progress} {index : Nat} (frame : Frame) (height : Nat)
    (inside : index < progress.known.frames.size) :
    knownCount (record progress index frame height) =
      knownCount progress + if progress.known.frame? index = none then 1 else 0 := by
  obtain ⟨frames, _⟩ := record_frames progress index frame height
  have listed : index < progress.known.frames.toList.length := by simpa using inside
  have positive : progress.known.frames.toList[index].isSome →
      0 < progress.known.frames.toList.countP Option.isSome := fun there =>
    List.countP_pos_iff.mpr ⟨_, List.getElem_mem listed, there⟩
  simp only [knownCount, frames, Array.toList_setIfInBounds, List.countP_set listed,
    Option.isSome_some, if_true, frame?_eq_getElem inside]
  generalize progress.known.frames.toList.countP Option.isSome = count at positive ⊢
  cases found : progress.known.frames.toList[index] with
  | none => simp
  | some mine =>
      have some_known := positive (by simp [found])
      simp
      omega

/-- What is true of all frames while an analysis runs: their names and their slots, and that no stack
is as high as the number of instructions reached. -/
structure Tame (names : List String) (slots : Nat) (progress : Progress) : Prop where
  named : Everywhere (fun frame => frame.Named names ∧ frame.locals.length = slots) progress.known
  low : Everywhere (fun frame => frame.stack.length < knownCount progress) progress.known

/-- Every frame there can be ranks no higher. -/
def mostRank (names : List String) (slots size : Nat) : Nat := (slots + size) * (names.length + 2)

variable {setting : Setting} {slots : Nat}

theorem rank_le_most {frame : Frame} {size : Nat} (locals : frame.locals.length = slots)
    (low : frame.stack.length ≤ size) :
    frame.rank hierarchy names ≤ mostRank names slots size := by
  have below : ranks hierarchy names frame.locals ≤ _ := ranks_le frame.locals
  have above : ranks hierarchy names frame.stack ≤ _ := ranks_le frame.stack
  have higher := Nat.mul_le_mul_right (names.length + 2) low
  rw [locals] at below
  unfold Frame.rank mostRank
  rw [Nat.add_mul]
  omega

theorem arrive_tame (acyclic : setting.hierarchy.Acyclic)
    (whole : Universe setting.hierarchy names)
    (kept : Kept setting fun frame => frame.Named names ∧ frame.locals.length = slots)
    {progress next : Progress} {index : Nat} {frame : Frame} (tame : Tame names slots progress)
    (inside : index < progress.known.frames.size)
    (new : frame.Named names ∧ frame.locals.length = slots)
    (low : frame.stack.length ≤ knownCount progress)
    (arrived : arrive setting.hierarchy progress index frame = .ok next) :
    Tame names slots next ∧ knownCount progress ≤ knownCount next ∧
      next.known.frames.size = progress.known.frames.size ∧
      potential setting.hierarchy names (mostRank names slots progress.known.frames.size) next ≤
        potential setting.hierarchy names (mostRank names slots progress.known.frames.size)
          progress := by
  have named := arrive_everywhere kept tame.named new arrived
  obtain ⟨merged, rfl, origin⟩ := arrive_cases arrived
  have count := record_count merged frame.stack.length inside
  have size : (record progress index merged frame.stack.length).known.frames.size =
      progress.known.frames.size := by
    rw [(record_frames progress index merged frame.stack.length).1]
    simp
  have height : merged.stack.length <
      knownCount (record progress index merged frame.stack.length) := by
    rcases origin with ⟨unknown, rfl⟩ | ⟨mine, known, joined⟩
    · rw [count, if_pos unknown]
      omega
    · have same := (Frame.merge_within joined).1.1
      have lower := tame.low index mine known
      omega
  refine ⟨⟨named, ?_⟩, by omega, size, record_potential _ inside ?_⟩
  · intro other found there
    rcases frame?_record_cases there with rfl | old
    · exact height
    · have lower := tame.low other found old
      omega
  · rcases origin with ⟨unknown, rfl⟩ | ⟨mine, known, joined⟩
    · refine Or.inl ⟨unknown, rank_le_most new.2 (low.trans (knownCount_le progress))⟩
    · obtain ⟨named_mine, slots_mine⟩ := tame.named index mine known
      exact Or.inr ⟨mine, known, Frame.merge_rank acyclic whole (slots_mine.trans new.2.symm)
        named_mine new.1 joined⟩

theorem foldlM_arrive_tame (acyclic : setting.hierarchy.Acyclic)
    (whole : Universe setting.hierarchy names)
    (kept : Kept setting fun frame => frame.Named names ∧ frame.locals.length = slots)
    {passedOn : List (Nat × Frame)} {progress next : Progress} (tame : Tame names slots progress)
    (fits : ∀ target frame, (target, frame) ∈ passedOn →
      target < progress.known.frames.size ∧
        (frame.Named names ∧ frame.locals.length = slots) ∧
        frame.stack.length ≤ knownCount progress)
    (folded : passedOn.foldlM (fun progress (target, frame) =>
      arrive setting.hierarchy progress target frame) progress = .ok next) :
    Tame names slots next ∧ next.known.frames.size = progress.known.frames.size ∧
      potential setting.hierarchy names (mostRank names slots progress.known.frames.size) next ≤
        potential setting.hierarchy names (mostRank names slots progress.known.frames.size)
          progress := by
  induction passedOn generalizing progress with
  | nil =>
      cases Outcome.pure_eq_ok.mp folded
      exact ⟨tame, rfl, Nat.le_refl _⟩
  | cons pair rest ih =>
      obtain ⟨target, frame⟩ := pair
      obtain ⟨middle, arrived, later⟩ := Outcome.bind_eq_ok.mp folded
      obtain ⟨inside, new, low⟩ := fits target frame List.mem_cons_self
      obtain ⟨tame', count, size, falls⟩ :=
        arrive_tame acyclic whole kept tame inside new low arrived
      obtain ⟨last, size', falls'⟩ := ih tame' (by
        intro other passed member
        obtain ⟨within, named, height⟩ := fits other passed (List.mem_cons_of_mem _ member)
        exact ⟨size ▸ within, named, height.trans count⟩) later
      rw [size] at size' falls'
      exact ⟨last, size', falls'.trans falls⟩

/-- A visit takes its instruction off the queue and lowers the potential. -/
theorem visit_tame (acyclic : setting.hierarchy.Acyclic)
    (whole : Universe setting.hierarchy names) (inRange : InRange setting)
    (kept : Kept setting fun frame => frame.Named names ∧ frame.locals.length = slots)
    {known : Analysis} {index : Nat} {rest : List Nat} {next : Progress}
    (size : known.frames.size = setting.code.size) (tame : Tame names slots ⟨known, index :: rest⟩)
    (visited : visit setting ⟨known, rest⟩ index = .ok next) :
    Tame names slots next ∧ next.known.frames.size = setting.code.size ∧
      potential setting.hierarchy names (mostRank names slots setting.code.size) next <
        potential setting.hierarchy names (mostRank names slots setting.code.size)
          ⟨known, index :: rest⟩ := by
  have popped : ∀ most, potential setting.hierarchy names most ⟨known, rest⟩ <
      potential setting.hierarchy names most ⟨known, index :: rest⟩ := by
    intro most
    simp [potential]
  have tame' : Tame names slots ⟨known, rest⟩ := ⟨tame.named, tame.low⟩
  rcases visit_cases visited with
    ⟨_, rfl⟩ | ⟨insn, before, after, passedOn, at_index, found, executed, listed, folded⟩
  · exact ⟨tame', size, popped _⟩
  have raised : Tame names slots (Progress.raise ⟨known, rest⟩ after) := ⟨tame'.named, tame'.low⟩
  obtain ⟨last, size', falls⟩ := foldlM_arrive_tame acyclic whole kept raised (by
    intro target frame member
    refine ⟨?_, kept.passed at_index (tame'.named index before found) executed listed member, ?_⟩
    · show target < known.frames.size
      rw [size]
      exact mem_successors_lt inRange listed member
    · have lower : before.stack.length < knownCount ⟨known, rest⟩ := tame'.low index before found
      have step := KindFrame.step_height (Transfer.execute_step index executed)
      have same : knownCount (Progress.raise ⟨known, rest⟩ after) = knownCount ⟨known, rest⟩ := rfl
      simp only [Frame.kinds, List.length_map] at step
      rw [same]
      rcases (mem_successors listed target frame).mp member with handled | branch | following
      · obtain ⟨_, _, _, _, rfl⟩ := handled
        simp
        omega
      · rw [branch.2]
        omega
      · rw [following.2.2]
        omega) folded
  have size'' : (Progress.raise ⟨known, rest⟩ after).known.frames.size = setting.code.size := size
  rw [size''] at size' falls
  exact ⟨last, size', falls.trans_lt (popped _)⟩

/-- Visits that always succeed and lower a measure come to an end. -/
theorem iterate_finishes (setting : Setting) (holds : Progress → Prop) (measure : Progress → Nat)
    (waits : ∀ progress, holds progress → progress.waiting.length ≤ measure progress)
    (step : ∀ known index rest, holds ⟨known, index :: rest⟩ →
      ∃ next, visit setting ⟨known, rest⟩ index = .ok next ∧ holds next ∧
        measure next < measure ⟨known, index :: rest⟩)
    {bound : Nat} {progress : Progress} (start : holds progress)
    (enough : measure progress ≤ bound) :
    ∃ known, iterate setting bound progress = .ok known ∧ holds ⟨known, []⟩ := by
  induction bound generalizing progress with
  | zero =>
      have empty : progress.waiting.length = 0 := by
        have few := waits progress start
        omega
      obtain ⟨known, waiting⟩ := progress
      cases List.length_eq_zero_iff.mp empty
      exact ⟨known, rfl, start⟩
  | succ bound ih =>
      obtain ⟨known, waiting⟩ := progress
      cases waiting with
      | nil => exact ⟨known, rfl, start⟩
      | cons index rest =>
          obtain ⟨next, visited, holds', lower⟩ := step known index rest start
          obtain ⟨last, finished, holds''⟩ := ih holds' (by omega)
          exact ⟨last, Outcome.bind_eq_ok.mpr ⟨next, visited, finished⟩, holds''⟩

theorem waiting_le_potential (most : Nat) (progress : Progress) :
    progress.waiting.length ≤ potential hierarchy names most progress :=
  Nat.le_add_left _ _

theorem begin_potential {size : Nat} {entry : Frame} (some_code : 0 < size)
    (slots_entry : entry.locals.length = slots) (empty : entry.stack = []) :
    potential hierarchy names (mostRank names slots size) (.begin size entry) ≤
      1 + size * (mostRank names slots size + 1) := by
  have low : entry.rank hierarchy names ≤ mostRank names slots size :=
    rank_le_most slots_entry (by simp [empty])
  have changed := sum_map_set (List.replicate size (none : Option Frame))
    (by simpa using some_code) (some entry) (weight hierarchy names (mostRank names slots size))
  simp only [List.getElem_replicate, weight, List.map_replicate,
    List.sum_replicate_nat] at changed
  simp only [potential, Progress.begin, Array.toList_setIfInBounds, Array.toList_replicate,
    List.length_cons, List.length_nil]
  omega

end Analysis

end StackCoroutine
