import StackCoroutine.Frame.Analysis
import StackCoroutine.Proofs.Outcome

/-!
What a finished frame analysis guarantees. Every frame that arrives at an instruction is merged with
the frame known there, so whatever a merge preserves of both frames holds between the known frame and
each frame that ever arrived. When no instruction waits any more, this covers all instructions that
have a frame: executing one succeeds, and the frames it passes on have arrived.
-/

namespace StackCoroutine.Analysis

/-- What `above mine other` says of a known frame and one that arrived survives further merges. -/
structure Joining (hierarchy : Hierarchy) (above : Frame → Frame → Prop) : Prop where
  refl : ∀ frame, above frame frame
  trans : ∀ {high middle low}, above high middle → above middle low → above high low
  left : ∀ {index mine other merged},
    Frame.merge hierarchy index mine other = .ok merged → above merged mine
  right : ∀ {index mine other merged},
    Frame.merge hierarchy index mine other = .ok merged → above merged other

/-- A frame is known at an instruction and lies above the given one. -/
def Arrived (above : Frame → Frame → Prop) (known : Analysis) (target : Nat) (frame : Frame) :
    Prop :=
  ∃ mine, known.frame? target = some mine ∧ above mine frame

/-- The frame before an instruction, if there is one, has been passed on. -/
def Passed (above : Frame → Frame → Prop) (setting : Setting) (known : Analysis) (index : Nat) :
    Prop :=
  ∀ insn before, setting.code[index]? = some insn → known.frame? index = some before →
    ∃ after next, (Transfer.execute index setting.result insn).run before = .ok ((), after) ∧
      successors setting index insn before after = .ok next ∧
      after.stack.length ≤ known.maxStack ∧
      ∀ target frame, (target, frame) ∈ next →
        frame.stack.length ≤ known.maxStack ∧ Arrived above known target frame

/-- All frames have been passed on. -/
def Settled (above : Frame → Frame → Prop) (setting : Setting) (known : Analysis) : Prop :=
  ∀ index, Passed above setting known index

/-- Nothing is lost: known frames only rise, and where one has changed the instruction waits. -/
structure Grows (above : Frame → Frame → Prop) (before after : Progress) : Prop where
  size : after.known.frames.size = before.known.frames.size
  maxStack : before.known.maxStack ≤ after.known.maxStack
  frames : ∀ index frame, before.known.frame? index = some frame →
    Arrived above after.known index frame
  waiting : ∀ index, index ∈ before.waiting → index ∈ after.waiting
  changed : ∀ index, after.known.frame? index ≠ before.known.frame? index → index ∈ after.waiting

variable {hierarchy : Hierarchy} {above : Frame → Frame → Prop}

theorem Grows.refl (joining : Joining hierarchy above) (progress : Progress) :
    Grows above progress progress where
  size := rfl
  maxStack := Nat.le_refl _
  frames _ frame known := ⟨frame, known, joining.refl frame⟩
  waiting _ member := member
  changed _ different := absurd rfl different

theorem Arrived.grows (joining : Joining hierarchy above) {before after : Progress}
    (grows : Grows above before after) {target : Nat} {frame : Frame}
    (arrived : Arrived above before.known target frame) :
    Arrived above after.known target frame := by
  obtain ⟨mine, known, higher⟩ := arrived
  obtain ⟨later, found, risen⟩ := grows.frames target mine known
  exact ⟨later, found, joining.trans risen higher⟩

theorem Grows.trans (joining : Joining hierarchy above) {first second third : Progress}
    (early : Grows above first second) (late : Grows above second third) :
    Grows above first third where
  size := late.size.trans early.size
  maxStack := Nat.le_trans early.maxStack late.maxStack
  frames index frame known := (early.frames index frame known).grows joining late
  waiting index member := late.waiting index (early.waiting index member)
  changed index different := by
    by_cases same : third.known.frame? index = second.known.frame? index
    · exact late.waiting index (early.changed index (same ▸ different))
    · exact late.changed index same

/-- What was passed on stays so, unless the frame itself has changed. -/
theorem Passed.grows (joining : Joining hierarchy above) {setting : Setting}
    {before after : Progress} (grows : Grows above before after) {index : Nat}
    (same : after.known.frame? index = before.known.frame? index)
    (passed : Passed above setting before.known index) :
    Passed above setting after.known index := by
  intro insn frame at_index known
  obtain ⟨result, next, executed, listed, height, arrived⟩ :=
    passed insn frame at_index (same ▸ known)
  refine ⟨result, next, executed, listed, Nat.le_trans height grows.maxStack, ?_⟩
  intro target passedOn member
  obtain ⟨low, there⟩ := arrived target passedOn member
  exact ⟨Nat.le_trans low grows.maxStack, there.grows joining grows⟩

theorem frame?_lt {known : Analysis} {index : Nat} {frame : Frame}
    (found : known.frame? index = some frame) : index < known.frames.size := by
  unfold frame? at found
  cases slot : known.frames[index]? with
  | none => simp [slot] at found
  | some _ => exact (Array.getElem?_eq_some_iff.mp slot).1

theorem frame?_record {progress : Progress} {index : Nat} (frame : Frame) (height other : Nat)
    (inside : index < progress.known.frames.size) :
    (record progress index frame height).known.frame? other =
      if other = index then some frame else progress.known.frame? other := by
  unfold record
  by_cases unchanged : progress.known.frame? index = some frame
  · simp only [if_pos unchanged]
    by_cases same : other = index
    · subst other
      rw [if_pos rfl]
      exact unchanged
    · rw [if_neg same]
      rfl
  · simp only [if_neg unchanged]
    by_cases same : other = index
    · subst other
      simp [frame?, inside]
    · simp [same, frame?, Array.getElem?_setIfInBounds_ne (Ne.symm same)]

theorem record_maxStack (progress : Progress) (index : Nat) (frame : Frame) (height : Nat) :
    (record progress index frame height).known.maxStack = max progress.known.maxStack height := by
  unfold record
  split <;> rfl

/-- A frame that lies above the one known so far takes its place. -/
theorem record_grows (joining : Joining hierarchy above) {progress : Progress} {index : Nat}
    (frame : Frame) (height : Nat) (inside : index < progress.known.frames.size)
    (higher : ∀ mine, progress.known.frame? index = some mine → above frame mine) :
    Grows above progress (record progress index frame height) where
  size := by
    unfold record
    split <;> simp
  maxStack := by
    rw [record_maxStack]
    exact Nat.le_max_left _ _
  frames other mine known := by
    by_cases same : other = index
    · subst other
      exact ⟨frame, by simp [frame?_record, inside], higher mine known⟩
    · exact ⟨mine, by simpa [frame?_record, inside, same] using known, joining.refl mine⟩
  waiting other member := by
    unfold record
    split
    · exact member
    · by_cases listed : index ∈ progress.waiting <;> simp [listed, member]
  changed other different := by
    by_cases same : other = index
    · subst other
      have changed : ¬ progress.known.frame? index = some frame := by
        simpa [frame?_record, inside] using Ne.symm different
      unfold record
      rw [if_neg changed]
      by_cases listed : index ∈ progress.waiting <;> simp [listed]
    · simp [frame?_record, inside, same] at different

/-- An arriving frame is recorded as it is or merged into the one known at its target. -/
theorem arrive_cases {progress next : Progress} {index : Nat} {frame : Frame}
    (arrived : arrive hierarchy progress index frame = .ok next) :
    ∃ merged, next = record progress index merged frame.stack.length ∧
      (progress.known.frame? index = none ∧ merged = frame ∨
        ∃ mine, progress.known.frame? index = some mine ∧
          mine.merge hierarchy index frame = .ok merged) := by
  unfold arrive at arrived
  cases known : progress.known.frame? index with
  | none =>
      rw [known] at arrived
      exact ⟨frame, (Outcome.pure_eq_ok.mp arrived).symm, Or.inl ⟨rfl, rfl⟩⟩
  | some mine =>
      rw [known] at arrived
      obtain ⟨merged, joined, recorded⟩ := Outcome.bind_eq_ok.mp arrived
      exact ⟨merged, (Outcome.pure_eq_ok.mp recorded).symm, Or.inr ⟨mine, rfl, joined⟩⟩

/-- One arrival: the frame is merged into the one known at its target, which waits if it changed. -/
theorem arrive_grows (joining : Joining hierarchy above) {progress next : Progress}
    {index : Nat} {frame : Frame} (inside : index < progress.known.frames.size)
    (arrived : arrive hierarchy progress index frame = .ok next) :
    Grows above progress next ∧ frame.stack.length ≤ next.known.maxStack ∧
      Arrived above next.known index frame ∧
      ∀ other, other ≠ index → next.known.frame? other = progress.known.frame? other := by
  obtain ⟨merged, rfl, origin⟩ := arrive_cases arrived
  have higher : above merged frame ∧
      ∀ mine, progress.known.frame? index = some mine → above merged mine := by
    rcases origin with ⟨unknown, rfl⟩ | ⟨mine, known, joined⟩
    · exact ⟨joining.refl merged, fun mine known => absurd known (by simp [unknown])⟩
    · refine ⟨joining.right joined, fun other same => ?_⟩
      rw [known] at same
      cases same
      exact joining.left joined
  refine ⟨record_grows joining merged _ inside higher.2, ?_, ⟨merged, ?_, higher.1⟩, ?_⟩
  · rw [record_maxStack]
    exact Nat.le_max_right _ _
  · simp [frame?_record, inside]
  · intro other different
    simp [frame?_record, inside, different]

/-- All frames that an instruction passes on arrive, and nothing changes elsewhere. -/
theorem foldlM_arrive_grows (joining : Joining hierarchy above) (next : List (Nat × Frame))
    {progress last : Progress} (inside : ∀ target frame, (target, frame) ∈ next →
      target < progress.known.frames.size)
    (arrived : next.foldlM (fun progress (target, frame) =>
      arrive hierarchy progress target frame) progress = .ok last) :
    Grows above progress last ∧
      (∀ target frame, (target, frame) ∈ next →
        frame.stack.length ≤ last.known.maxStack ∧ Arrived above last.known target frame) ∧
      ∀ other, last.known.frame? other ≠ progress.known.frame? other →
        ∃ frame, (other, frame) ∈ next := by
  induction next generalizing progress with
  | nil =>
      simp only [List.foldlM_nil, pure, Except.pure, Except.ok.injEq] at arrived
      subst last
      exact ⟨Grows.refl joining progress, by simp, fun _ different => absurd rfl different⟩
  | cons pair rest ih =>
      obtain ⟨target, frame⟩ := pair
      simp only [List.foldlM_cons, bind, Except.bind] at arrived
      cases first : arrive hierarchy progress target frame with
      | error cause => simp [first] at arrived
      | ok middle =>
          simp only [first] at arrived
          obtain ⟨early, low, there, elsewhere⟩ :=
            arrive_grows joining (inside target frame (by simp)) first
          obtain ⟨late, others, changes⟩ := ih (by
            intro other passedOn member
            rw [early.size]
            exact inside other passedOn (List.mem_cons_of_mem _ member)) arrived
          refine ⟨early.trans joining late, ?_, ?_⟩
          · intro other passedOn member
            rcases List.mem_cons.mp member with same | later
            · cases same
              exact ⟨Nat.le_trans low late.maxStack, there.grows joining late⟩
            · exact others other passedOn later
          · intro other different
            by_cases here : other = target
            · exact ⟨frame, by simp [here]⟩
            · rw [← elsewhere other here] at different
              obtain ⟨passedOn, member⟩ := changes other different
              exact ⟨passedOn, List.mem_cons_of_mem _ member⟩

end StackCoroutine.Analysis

namespace StackCoroutine.LabelTable

theorem find?_cons (known : LabelTable) (first label : Label) (index : Nat) :
    find? ((first, index) :: known) label =
      if label = first then some index else known.find? label := by
  by_cases same : label = first
  · simp [find?, same]
  · have different : (label == first) = false := by simp [same]
    simp [find?, List.lookup_cons, same, different]

/-- A table knows the labels it knew before and those that the code defines. -/
theorem collect_find? {index : Nat} {known table : LabelTable} {code : List Insn}
    (collected : collect index known code = .ok table) (label : Label) (place : Nat) :
    table.find? label = some place ↔ known.find? label = some place ∨
      ∃ offset, place = index + offset ∧ code[offset]? = some (.label label) := by
  fun_induction collect index known code with
  | case1 index known =>
      cases collected
      simp
  | case2 => simp at collected
  | case3 index known first rest fresh ih =>
      rw [ih collected, find?_cons]
      constructor
      · rintro (here | ⟨offset, rfl, there⟩)
        · by_cases same : label = first
          · rw [if_pos same] at here
            cases here
            exact Or.inr ⟨0, rfl, by simp [same]⟩
          · rw [if_neg same] at here
            exact Or.inl here
        · exact Or.inr ⟨offset + 1, by omega, by simpa using there⟩
      · rintro (before | ⟨offset, rfl, there⟩)
        · have different : label ≠ first := by
            rintro rfl
            simp [fresh] at before
          simp [different, before]
        · cases offset with
          | zero =>
              have same : first = label := by simpa using there
              simp [same]
          | succ offset => exact Or.inr ⟨offset, by omega, by simpa using there⟩
  | case4 index known insn rest other ih =>
      rw [ih collected]
      refine or_congr_right ⟨?_, ?_⟩
      · rintro ⟨offset, rfl, there⟩
        exact ⟨offset + 1, by omega, by simpa using there⟩
      · rintro ⟨offset, rfl, there⟩
        cases offset with
        | zero => exact absurd (by simpa using there) (other label)
        | succ offset => exact ⟨offset, by omega, by simpa using there⟩

theorem ofCode_find? {code : List Insn} {table : LabelTable} (collected : ofCode code = .ok table)
    (label : Label) (place : Nat) :
    table.find? label = some place ↔ code[place]? = some (.label label) := by
  have found := collect_find? collected label place
  have empty : find? [] label = none := rfl
  simpa [empty] using found

end StackCoroutine.LabelTable

namespace StackCoroutine.Analysis

variable {hierarchy : Hierarchy} {above : Frame → Frame → Prop}

/-- Control can go from one instruction to another, with whatever frame. -/
def Leads (setting : Setting) (index target : Nat) : Prop :=
  ∃ insn, setting.code[index]? = some insn ∧
    ((∃ handler ∈ setting.handlers, handler.covers index ∧ handler.target = target) ∨
      (∃ label ∈ insn.targets, resolve setting.labels label = .ok target) ∨
      (insn.isTerminator = false ∧ target = index + 1))

/-- Control can come to an instruction from the start of the method. -/
inductive Reached (setting : Setting) : Nat → Prop where
  | start : Reached setting 0
  | next {index target : Nat} :
      Reached setting index → Leads setting index target → Reached setting target

/-- Every place that control can go to is one of the code. -/
structure InRange (setting : Setting) : Prop where
  labels : ∀ label target, resolve setting.labels label = .ok target →
    target < setting.code.size
  handlers : ∀ handler ∈ setting.handlers, handler.target < setting.code.size

theorem mapM_resolve_mem {labels : LabelTable} {after : Frame} {names : List Label}
    {branched : List (Nat × Frame)}
    (listed : names.mapM (fun label => do return (← resolve labels label, after)) = .ok branched)
    (target : Nat) (frame : Frame) :
    (target, frame) ∈ branched ↔
      (∃ label ∈ names, resolve labels label = .ok target) ∧ frame = after := by
  induction names generalizing branched with
  | nil =>
      simp only [List.mapM_nil, pure, Except.pure, Except.ok.injEq] at listed
      simp [← listed]
  | cons label rest ih =>
      simp only [List.mapM_cons, bind, Except.bind, pure, Except.pure] at listed
      cases found : resolve labels label with
      | error cause => simp [found] at listed
      | ok place =>
          simp only [found] at listed
          split at listed
          · simp at listed
          · rename_i others tail
            simp only [Except.ok.injEq] at listed
            subst listed
            simp only [List.mem_cons, Prod.mk.injEq, exists_eq_or_imp, found, Except.ok.injEq]
            rw [ih tail]
            grind

/-- The frames an instruction passes on, by where they go. -/
theorem mem_successors {setting : Setting} {index : Nat} {insn : Insn} {before after : Frame}
    {next : List (Nat × Frame)}
    (listed : successors setting index insn before after = .ok next)
    (target : Nat) (frame : Frame) :
    (target, frame) ∈ next ↔
      (∃ handler ∈ setting.handlers, handler.covers index ∧ handler.target = target ∧
        frame = { before with stack := [.reference handler.caught] }) ∨
      ((∃ label ∈ insn.targets, resolve setting.labels label = .ok target) ∧ frame = after) ∨
      (insn.isTerminator = false ∧ target = index + 1 ∧ frame = after) := by
  unfold successors at listed
  simp only [bind, Except.bind] at listed
  split at listed
  · simp at listed
  rename_i branched branches
  have branch := mapM_resolve_mem branches target frame
  have handled : (target, frame) ∈ ((setting.handlers.filter fun handler =>
      handler.covers index).map fun handler =>
        (handler.target, { before with stack := [FrameValue.reference handler.caught] })) ↔
      ∃ handler ∈ setting.handlers, handler.covers index ∧ handler.target = target ∧
        frame = { before with stack := [.reference handler.caught] } := by
    simp only [List.mem_map, List.mem_filter, Prod.mk.injEq]
    grind
  cases terminator : insn.isTerminator with
  | true =>
      simp only [terminator, if_true, pure, Except.pure, Except.ok.injEq] at listed
      simp [← listed, List.mem_append, handled, branch]
  | false =>
      simp only [terminator, Bool.false_eq_true, if_false] at listed
      split at listed
      · simp only [pure, Except.pure, Except.ok.injEq] at listed
        simp [← listed, List.mem_append, handled, branch]
      · simp [throw, throwThe, MonadExceptOf.throw] at listed

theorem successors_next_lt {setting : Setting} {index : Nat} {insn : Insn} {before after : Frame}
    {next : List (Nat × Frame)}
    (listed : successors setting index insn before after = .ok next)
    (continues : insn.isTerminator = false) : index + 1 < setting.code.size := by
  unfold successors at listed
  simp only [bind, Except.bind, continues, Bool.false_eq_true, if_false] at listed
  split at listed
  · simp at listed
  split at listed
  · assumption
  · simp [throw, throwThe, MonadExceptOf.throw] at listed

theorem successors_resolve {setting : Setting} {index : Nat} {insn : Insn} {before after : Frame}
    {next : List (Nat × Frame)}
    (listed : successors setting index insn before after = .ok next) :
    ∀ label ∈ insn.targets, ∃ place, resolve setting.labels label = .ok place := by
  intro label target
  obtain ⟨branched, branches, _⟩ := Outcome.bind_eq_ok.mp listed
  obtain ⟨_, _, found⟩ := Outcome.mapM_mem_of_mem branches target
  obtain ⟨place, resolved, _⟩ := Outcome.bind_eq_ok.mp found
  exact ⟨place, resolved⟩

theorem mem_successors_leads {setting : Setting} {index : Nat} {insn : Insn}
    {before after : Frame} {next : List (Nat × Frame)} (at_index : setting.code[index]? = some insn)
    (listed : successors setting index insn before after = .ok next) {target : Nat} {frame : Frame}
    (member : (target, frame) ∈ next) : Leads setting index target := by
  rcases (mem_successors listed target frame).mp member with handled | branch | following
  · obtain ⟨handler, known, covers, same, _⟩ := handled
    exact ⟨insn, at_index, Or.inl ⟨handler, known, covers, same⟩⟩
  · exact ⟨insn, at_index, Or.inr (Or.inl branch.1)⟩
  · exact ⟨insn, at_index, Or.inr (Or.inr ⟨following.1, following.2.1⟩)⟩

theorem mem_successors_lt {setting : Setting} (inRange : InRange setting) {index : Nat}
    {insn : Insn} {before after : Frame} {next : List (Nat × Frame)}
    (listed : successors setting index insn before after = .ok next) {target : Nat} {frame : Frame}
    (member : (target, frame) ∈ next) : target < setting.code.size := by
  rcases (mem_successors listed target frame).mp member with handled | branch | following
  · obtain ⟨handler, known, _, rfl, _⟩ := handled
    exact inRange.handlers handler known
  · obtain ⟨⟨label, _, found⟩, _⟩ := branch
    exact inRange.labels label target found
  · obtain ⟨continues, rfl, _⟩ := following
    exact successors_next_lt listed continues

/-- What holds between two visits: whatever does not wait has been passed on. -/
structure Sound (above : Frame → Frame → Prop) (setting : Setting) (entry : Frame)
    (progress : Progress) : Prop where
  size : progress.known.frames.size = setting.code.size
  entry : Arrived above progress.known 0 entry
  reached : ∀ index frame, progress.known.frame? index = some frame → Reached setting index
  passed : ∀ index, index ∉ progress.waiting → Passed above setting progress.known index

/-- The progress after the stack of a frame has been measured. -/
def Progress.raise (progress : Progress) (frame : Frame) : Progress :=
  { progress with known := { progress.known with
    maxStack := max progress.known.maxStack frame.stack.length } }

/-- A visit executes its instruction and passes frames on, or finds nothing to execute. -/
theorem visit_cases {setting : Setting} {progress next : Progress} {index : Nat}
    (visited : visit setting progress index = .ok next) :
    ((∀ insn before, setting.code[index]? = some insn →
        progress.known.frame? index = some before → False) ∧ next = progress) ∨
      ∃ insn before after passedOn, setting.code[index]? = some insn ∧
        progress.known.frame? index = some before ∧
        (Transfer.execute index setting.result insn).run before = .ok ((), after) ∧
        successors setting index insn before after = .ok passedOn ∧
        passedOn.foldlM (fun progress (target, frame) =>
          arrive setting.hierarchy progress target frame) (progress.raise after) = .ok next := by
  unfold visit at visited
  split at visited
  · rename_i insn before at_index found
    simp only [Outcome.bind_eq_ok] at visited
    obtain ⟨⟨_, after⟩, executed, passedOn, listed, spread⟩ := visited
    exact Or.inr ⟨insn, before, after, passedOn, at_index, found, executed, listed, spread⟩
  · rename_i missing
    cases visited
    exact Or.inl ⟨missing, rfl⟩

theorem raise_grows (joining : Joining hierarchy above) (progress : Progress) (frame : Frame) :
    Grows above progress (progress.raise frame) where
  size := rfl
  maxStack := Nat.le_max_left _ _
  frames _ frame known := ⟨frame, known, joining.refl frame⟩
  waiting _ member := member
  changed _ different := absurd rfl different

/-- A visit passes the frame of its instruction on and takes nothing else back. -/
theorem visit_sound {setting : Setting} (joining : Joining setting.hierarchy above)
    (inRange : InRange setting) {entry : Frame} {known : Analysis} {index : Nat}
    {rest : List Nat} {next : Progress} (sound : Sound above setting entry ⟨known, index :: rest⟩)
    (visited : visit setting ⟨known, rest⟩ index = .ok next) : Sound above setting entry next := by
  rcases visit_cases visited with
    ⟨missing, rfl⟩ | ⟨insn, before, after, passedOn, at_index, found, executed, listed, folded⟩
  · refine ⟨sound.size, sound.entry, sound.reached, ?_⟩
    intro other settled
    by_cases here : other = index
    · subst other
      intro insn before at_index found
      exact absurd found (missing insn before at_index)
    · exact sound.passed other (by simp [here, settled])
  · have begins := raise_grows joining ⟨known, rest⟩ after
    have size : (Progress.raise ⟨known, rest⟩ after).known.frames.size = setting.code.size :=
      sound.size
    obtain ⟨spread, arrivals, changes⟩ := foldlM_arrive_grows joining passedOn (by
      intro target frame member
      rw [size]
      exact mem_successors_lt inRange listed member) folded
    have grows := begins.trans joining spread
    refine ⟨spread.size.trans size, sound.entry.grows joining grows, ?_, ?_⟩
    · intro other frame there
      by_cases kept : next.known.frame? other = known.frame? other
      · exact sound.reached other frame (kept ▸ there)
      · obtain ⟨passedFrame, member⟩ := changes other kept
        exact (sound.reached index before found).next
          (mem_successors_leads at_index listed member)
    -- What has settled was not changed by the visit, or it would wait. The instruction just visited
    -- has passed its frame on; the others had done so before.
    · intro other settled
      have kept : next.known.frame? other = known.frame? other :=
        Classical.byContradiction fun different => settled (grows.changed other different)
      by_cases here : other = index
      · subst other
        intro insn' before' at_index' found'
        rw [at_index] at at_index'
        rw [kept] at found'
        cases at_index'
        cases found.symm.trans found'
        refine ⟨after, passedOn, executed, listed, ?_, arrivals⟩
        exact Nat.le_trans (Nat.le_max_right _ _) spread.maxStack
      · have waited : other ∉ index :: rest := by
          intro member
          rcases List.mem_cons.mp member with same | later
          · exact here same
          · exact settled (grows.waiting other later)
        have passed : Passed above setting known other := sound.passed other waited
        exact passed.grows joining grows kept

theorem iterate_sound {setting : Setting} (joining : Joining setting.hierarchy above)
    (inRange : InRange setting) {entry : Frame} (bound : Nat) {progress : Progress}
    {known : Analysis} (sound : Sound above setting entry progress)
    (finished : iterate setting bound progress = .ok known) :
    Sound above setting entry ⟨known, []⟩ := by
  induction bound generalizing progress with
  | zero =>
      unfold iterate at finished
      split at finished
      · rename_i none_waits
        simp only [List.isEmpty_iff] at none_waits
        cases progress
        simp only [Except.ok.injEq] at finished
        subst finished none_waits
        exact sound
      · simp at finished
  | succ bound ih =>
      obtain ⟨known', waiting⟩ := progress
      cases waiting with
      | nil =>
          simp only [iterate, Except.ok.injEq] at finished
          subst finished
          exact sound
      | cons index rest =>
          simp only [iterate, bind, Except.bind] at finished
          split at finished
          · simp at finished
          rename_i next visited
          exact ih (visit_sound joining inRange sound visited) finished

theorem resolve_eq_ok {labels : LabelTable} {label : Label} {place : Nat} :
    resolve labels label = .ok place ↔ labels.find? label = some place := by
  unfold resolve
  cases labels.find? label <;> simp

theorem labelTable_resolve {code : List Insn} {labels : LabelTable}
    (collected : labelTable code = .ok labels) (label : Label) (place : Nat) :
    resolve labels label = .ok place ↔ code[place]? = some (.label label) := by
  have table : LabelTable.ofCode code = .ok labels := by
    unfold labelTable at collected
    cases found : LabelTable.ofCode code <;> simp_all [Except.mapError]
  rw [resolve_eq_ok, LabelTable.ofCode_find? table]

theorem resolveHandler_eq_ok {labels : LabelTable} {block : TryBlock} {handler : Handler}
    (resolved : resolveHandler labels block = .ok handler) :
    resolve labels block.start = .ok handler.start ∧ resolve labels block.stop = .ok handler.stop ∧
      handler.start < handler.stop ∧ resolve labels block.handler = .ok handler.target ∧
      handler.caught = block.caught.getD Names.throwable := by
  simp only [resolveHandler, Outcome.bind_eq_ok] at resolved
  obtain ⟨start, startFound, stop, stopFound, resolved⟩ := resolved
  split at resolved
  · exact absurd resolved Outcome.throw_bind_ne_ok
  rename_i proper
  simp only [Outcome.bind_eq_ok, Outcome.pure_eq_ok] at resolved
  obtain ⟨target, targetFound, rfl⟩ := resolved
  exact ⟨startFound, stopFound, by simpa using proper, targetFound, rfl⟩

/-- The instructions wait with nothing known but the first frame. -/
def Progress.begin (size : Nat) (entry : Frame) : Progress :=
  ⟨⟨(Array.replicate size none).setIfInBounds 0 (some entry), 0⟩, [0]⟩

theorem frame?_begin {size index : Nat} {entry frame : Frame}
    (found : (Progress.begin size entry).known.frame? index = some frame) :
    index = 0 ∧ frame = entry := by
  by_cases first : index = 0
  · subst index
    refine ⟨rfl, ?_⟩
    simp only [Progress.begin, frame?, Array.getElem?_setIfInBounds_self] at found
    split at found <;> simp at found
    exact found.symm
  · simp [Progress.begin, frame?, Ne.symm first, Array.getElem?_replicate] at found
    split at found <;> simp at found

/-- What an analysis reads off a method before it visits anything. -/
structure Prepared (owner : String) (method : Method) (labels : LabelTable)
    (handlers : List Handler) (result : ValueType) (entry : Frame) : Prop where
  collected : labelTable method.code = .ok labels
  resolved : method.tryBlocks.mapM (resolveHandler labels) = .ok handlers
  resulted : method.resultType = .ok result
  nonempty : method.code ≠ []
  entered : Frame.entry owner method = .ok entry

/-- An analysis is its preparation followed by the visits. -/
theorem analyze_eq_ok {owner : String} {method : Method} {known : Analysis} :
    analyze hierarchy owner method = .ok known ↔ ∃ labels handlers result entry,
      Prepared owner method labels handlers result entry ∧
      iterate ⟨hierarchy, method.code.toArray, labels, handlers, result.kind⟩
        (visitBound hierarchy owner method) (.begin method.code.length entry) = .ok known := by
  simp only [analyze, Outcome.bind_eq_ok]
  constructor
  · rintro ⟨labels, collected, handlers, resolved, result, typed, analyzed⟩
    split at analyzed
    · exact absurd analyzed Outcome.throw_bind_ne_ok
    rename_i some_code
    simp only [Outcome.bind_eq_ok] at analyzed
    obtain ⟨entry, entered, finished⟩ := analyzed
    exact ⟨labels, handlers, result, entry,
      ⟨collected, resolved, Outcome.mapError_eq_ok.mp typed, by simpa using some_code, entered⟩,
      finished⟩
  · rintro ⟨labels, handlers, result, entry, prepared, finished⟩
    refine ⟨labels, prepared.collected, handlers, prepared.resolved, result,
      Outcome.mapError_eq_ok.mpr prepared.resulted, ?_⟩
    rw [if_neg (by simpa using prepared.nonempty)]
    simp only [Outcome.bind_eq_ok]
    exact ⟨entry, prepared.entered, finished⟩

theorem Prepared.inRange {owner : String} {method : Method} {labels : LabelTable}
    {handlers : List Handler} {result : ValueType} {entry : Frame}
    (prepared : Prepared owner method labels handlers result entry) :
    InRange ⟨hierarchy, method.code.toArray, labels, handlers, result.kind⟩ := by
  have within : ∀ label target, resolve labels label = .ok target →
      target < method.code.toArray.size := by
    intro label target found
    have place := (labelTable_resolve prepared.collected label target).mp found
    simpa using (List.getElem?_eq_some_iff.mp place).1
  refine ⟨within, ?_⟩
  intro handler member
  obtain ⟨block, _, found⟩ := Outcome.mapM_mem prepared.resolved member
  exact within block.handler handler.target (resolveHandler_eq_ok found).2.2.2.1

/-- An analysis that succeeds ends with everything passed on. -/
theorem analyze_sound {owner : String} {method : Method} {known : Analysis}
    (joining : Joining hierarchy above) (analyzed : analyze hierarchy owner method = .ok known) :
    ∃ labels handlers result entry, Prepared owner method labels handlers result entry ∧
      Sound above ⟨hierarchy, method.code.toArray, labels, handlers, result.kind⟩ entry
        ⟨known, []⟩ := by
  obtain ⟨labels, handlers, result, entry, prepared, finished⟩ := analyze_eq_ok.mp analyzed
  refine ⟨labels, handlers, result, entry, prepared, ?_⟩
  have nonempty : 0 < method.code.length := List.length_pos_iff.mpr prepared.nonempty
  refine iterate_sound joining prepared.inRange _
    ⟨by simp [Progress.begin], ⟨entry, ?_, joining.refl entry⟩, ?_, ?_⟩ finished
  · simp [Progress.begin, frame?, nonempty]
  · intro index frame found
    rw [(frame?_begin found).1]
    exact .start
  · intro index waits insn before _ found
    have first : index ≠ 0 := by simpa [Progress.begin] using waits
    exact absurd (frame?_begin found).1 first

/-- An instruction that control comes to executes, and what it passes on has arrived wherever control
goes from there. -/
theorem Sound.arrivals {setting : Setting} {entry : Frame} {known : Analysis}
    (sound : Sound above setting entry ⟨known, []⟩) {index : Nat} {insn : Insn} {before : Frame}
    (at_index : setting.code[index]? = some insn) (found : known.frame? index = some before) :
    ∃ after, (Transfer.execute index setting.result insn).run before = .ok ((), after) ∧
      after.stack.length ≤ known.maxStack ∧
      (∀ label ∈ insn.targets, ∃ target, resolve setting.labels label = .ok target ∧
        Arrived above known target after) ∧
      (insn.isTerminator = false → index + 1 < setting.code.size ∧
        Arrived above known (index + 1) after) ∧
      ∀ handler ∈ setting.handlers, handler.covers index → 1 ≤ known.maxStack ∧
        Arrived above known handler.target { before with stack := [.reference handler.caught] } := by
  obtain ⟨after, next, executed, listed, height, arrived⟩ :=
    sound.passed index List.not_mem_nil insn before at_index found
  have member := mem_successors listed
  refine ⟨after, executed, height, ?_, ?_, ?_⟩
  · intro label target
    obtain ⟨place, resolved⟩ := successors_resolve listed label target
    exact ⟨place, resolved, (arrived place after ((member place after).mpr
      (.inr (.inl ⟨⟨label, target, resolved⟩, rfl⟩)))).2⟩
  · intro continues
    exact ⟨successors_next_lt listed continues,
      (arrived _ after ((member _ after).mpr (.inr (.inr ⟨continues, rfl, rfl⟩)))).2⟩
  · intro handler handles covers
    exact arrived _ _ ((member _ _).mpr (.inl ⟨handler, handles, covers, rfl, rfl⟩))

end StackCoroutine.Analysis
