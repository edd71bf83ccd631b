import StackCoroutine.Proofs.Frame.Settled

/-!
Properties of all frames that an analysis comes to know. A property that the first frame has, that
every instruction passes on and that a merge of two frames keeps, is one of every known frame.
-/

namespace StackCoroutine.Analysis

/-- Every known frame has a property. -/
def Everywhere (holds : Frame → Prop) (known : Analysis) : Prop :=
  ∀ index frame, known.frame? index = some frame → holds frame

/-- A property that instructions, handlers and merges keep. -/
structure Kept (setting : Setting) (holds : Frame → Prop) : Prop where
  executed : ∀ {index insn before after}, setting.code[index]? = some insn → holds before →
    (Transfer.execute index setting.result insn).run before = .ok ((), after) → holds after
  caught : ∀ {handler before}, handler ∈ setting.handlers → holds before →
    holds { before with stack := [.reference handler.caught] }
  merged : ∀ {index mine other merged}, holds mine → holds other →
    Frame.merge setting.hierarchy index mine other = .ok merged → holds merged

variable {setting : Setting} {holds : Frame → Prop}

theorem Kept.passed (kept : Kept setting holds) {index : Nat} {insn : Insn} {before after : Frame}
    {passedOn : List (Nat × Frame)} (at_index : setting.code[index]? = some insn)
    (start : holds before)
    (executed : (Transfer.execute index setting.result insn).run before = .ok ((), after))
    (listed : successors setting index insn before after = .ok passedOn) {target : Nat}
    {frame : Frame} (member : (target, frame) ∈ passedOn) : holds frame := by
  rcases (mem_successors listed target frame).mp member with handled | branch | following
  · obtain ⟨handler, known, _, _, rfl⟩ := handled
    exact kept.caught known start
  · obtain ⟨_, rfl⟩ := branch
    exact kept.executed at_index start executed
  · obtain ⟨_, _, rfl⟩ := following
    exact kept.executed at_index start executed

theorem frame?_record_cases {progress : Progress} {index height other : Nat} {frame found : Frame}
    (there : (record progress index frame height).known.frame? other = some found) :
    found = frame ∨ progress.known.frame? other = some found := by
  by_cases inside : index < progress.known.frames.size
  · rw [frame?_record frame height other inside] at there
    split at there
    · exact Or.inl (Option.some.inj there).symm
    · exact Or.inr there
  · refine Or.inr ?_
    unfold record at there
    split at there
    · exact there
    · rwa [frame?, Array.setIfInBounds_eq_of_size_le (by omega)] at there

theorem arrive_everywhere (kept : Kept setting holds) {progress next : Progress} {index : Nat}
    {frame : Frame} (all : Everywhere holds progress.known) (new : holds frame)
    (arrived : arrive setting.hierarchy progress index frame = .ok next) :
    Everywhere holds next.known := by
  obtain ⟨merged, rfl, origin⟩ := arrive_cases arrived
  intro other found there
  rcases frame?_record_cases there with rfl | old
  · rcases origin with ⟨_, rfl⟩ | ⟨mine, known, joined⟩
    · exact new
    · exact kept.merged (all index mine known) new joined
  · exact all other found old

theorem visit_everywhere (kept : Kept setting holds) {progress next : Progress} {index : Nat}
    (all : Everywhere holds progress.known) (visited : visit setting progress index = .ok next) :
    Everywhere holds next.known := by
  rcases visit_cases visited with
    ⟨_, rfl⟩ | ⟨insn, before, after, passedOn, at_index, found, executed, listed, folded⟩
  · exact all
  have news : ∀ target frame, (target, frame) ∈ passedOn → holds frame :=
    fun target frame member =>
      kept.passed at_index (all index before found) executed listed member
  have raised : Everywhere holds (progress.raise after).known := all
  generalize progress.raise after = start at folded raised
  clear listed
  induction passedOn generalizing start with
  | nil =>
      cases Outcome.pure_eq_ok.mp folded
      exact raised
  | cons pair rest ih =>
      obtain ⟨middle, arrived, later⟩ := Outcome.bind_eq_ok.mp folded
      exact ih (fun target frame member => news target frame (List.mem_cons_of_mem _ member)) middle
        later (arrive_everywhere kept raised (news _ _ List.mem_cons_self) arrived)

theorem iterate_everywhere (kept : Kept setting holds) {bound : Nat} {progress : Progress}
    {known : Analysis} (all : Everywhere holds progress.known)
    (finished : iterate setting bound progress = .ok known) : Everywhere holds known := by
  induction bound generalizing progress with
  | zero =>
      unfold iterate at finished
      split at finished
      · cases finished
        exact all
      · cases finished
  | succ bound ih =>
      obtain ⟨start, waiting⟩ := progress
      cases waiting with
      | nil =>
          cases finished
          exact all
      | cons index rest =>
          obtain ⟨next, visited, later⟩ := Outcome.bind_eq_ok.mp finished
          have before : Everywhere holds (⟨start, rest⟩ : Progress).known := all
          exact ih (visit_everywhere kept before visited) later

/-- A property of the first frame that is kept is one of all frames. -/
theorem analyze_everywhere {hierarchy : Hierarchy} {owner : String} {method : Method}
    {known : Analysis} (analyzed : analyze hierarchy owner method = .ok known)
    (starts : ∀ entry, Frame.entry owner method = .ok entry → holds entry)
    (kept : ∀ labels handlers result, method.tryBlocks.mapM (resolveHandler labels) = .ok handlers →
      Kept ⟨hierarchy, method.code.toArray, labels, handlers, result⟩ holds) :
    Everywhere holds known := by
  obtain ⟨labels, handlers, result, entry, prepared, finished⟩ := analyze_eq_ok.mp analyzed
  refine iterate_everywhere (kept labels handlers result.kind prepared.resolved) ?_ finished
  intro index frame found
  rw [(frame?_begin found).2]
  exact starts entry prepared.entered

end StackCoroutine.Analysis
