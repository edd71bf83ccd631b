import StackCoroutine.Proofs.Frame.Shape
import StackCoroutine.Proofs.Frame.Termination

/-!
Typings of code. A typing gives a shape to every place that control can come to, such that each
instruction fits the shape of its place and what it passes on fits where it goes. The frame analysis
of typed code succeeds, in a hierarchy without cycles, and knows no frame that is not as the typing
tells.
-/

namespace StackCoroutine

/-- Frames of one shape merge to a frame of that shape. -/
theorem Shape.Holds.merge {hierarchy : Hierarchy} {shape : Shape} {mine other : Frame}
    (index : Nat) (slots : mine.locals.length = other.locals.length)
    (first : shape.Holds mine.kinds) (second : shape.Holds other.kinds) :
    ∃ merged, Frame.merge hierarchy index mine other = .ok merged ∧
      merged.locals.length = mine.locals.length ∧ shape.Holds merged.kinds := by
  have heights : mine.stack.map FrameValue.kind = other.stack.map FrameValue.kind :=
    first.2.trans second.2.symm
  have kept : (List.zipWith (FrameValue.merge hierarchy) mine.stack other.stack).map
      FrameValue.kind = mine.stack.map FrameValue.kind := FrameValue.zipWith_merge_kinds heights
  refine ⟨⟨List.zipWith (FrameValue.merge hierarchy) mine.locals other.locals,
    List.zipWith (FrameValue.merge hierarchy) mine.stack other.stack⟩, ?_, ?_, ?_, ?_⟩
  · refine Frame.merge_eq_ok.mpr ⟨by simpa using congrArg List.length heights, rfl, rfl, ?_⟩
    intro lost
    have none_kind := List.mem_map_of_mem (f := FrameValue.kind) lost
    rw [kept] at none_kind
    have useful : mine.stack.map FrameValue.kind = shape.stack.map some := first.2
    rw [useful] at none_kind
    simp [FrameValue.kind] at none_kind
  · simp [slots]
  · intro slot kind member
    have here := first.1 slot kind member
    have there := second.1 slot kind member
    simp only [Frame.kinds, List.getElem?_map, Option.map_eq_some_iff,
      List.getElem?_zipWith_eq_some] at here there ⊢
    obtain ⟨a, found, has⟩ := here
    obtain ⟨b, found', has'⟩ := there
    exact ⟨_, ⟨a, b, found, found', rfl⟩, by rw [FrameValue.merge_kind, has, has', if_pos rfl]⟩
  · exact kept.trans first.2

theorem Transfer.execute_of_step (index : Nat) {result : Option Kind} {insn : Insn}
    {before : Frame} {next : KindFrame} (stepped : before.kinds.step result insn = some next) :
    ∃ after, (execute index result insn).run before = .ok ((), after) ∧ after.kinds = next := by
  rw [← execute_kinds before index] at stepped
  obtain ⟨⟨_, after⟩, done, same⟩ := Option.map_eq_some_iff.mp stepped
  exact ⟨after, Outcome.toOption_eq_some.mp done, same⟩

namespace Analysis

theorem mapM_resolve_ok {labels : LabelTable} {names : List Label} (after : Frame)
    (resolved : ∀ label ∈ names, ∃ place, resolve labels label = .ok place) :
    ∃ branched, names.mapM (fun label => do return (← resolve labels label, after)) =
      .ok branched := by
  induction names with
  | nil => exact ⟨[], rfl⟩
  | cons label rest ih =>
      obtain ⟨place, found⟩ := resolved label List.mem_cons_self
      obtain ⟨branched, others⟩ := ih fun other member => resolved other (List.mem_cons_of_mem _ member)
      refine ⟨(place, after) :: branched, Outcome.mapM_cons_eq_ok.mpr ⟨_, _, ?_, others, rfl⟩⟩
      rw [found]
      rfl

theorem successors_ok {setting : Setting} {index : Nat} {insn : Insn} (before after : Frame)
    (resolved : ∀ label ∈ insn.targets, ∃ place, resolve setting.labels label = .ok place)
    (follows : insn.isTerminator = false → index + 1 < setting.code.size) :
    ∃ next, successors setting index insn before after = .ok next := by
  obtain ⟨branched, branches⟩ := mapM_resolve_ok after resolved
  cases terminator : insn.isTerminator with
  | true => exact ⟨_, Outcome.bind_eq_ok.mpr ⟨branched, branches, if_pos terminator⟩⟩
  | false =>
      have continues : ¬ insn.isTerminator = true := by simp [terminator]
      exact ⟨_, Outcome.bind_eq_ok.mpr ⟨branched, branches,
        (if_neg continues).trans (if_pos (follows terminator))⟩⟩

/-- Frames of the shape are as the shape of the target tells. -/
def Receives (shapes : Nat → Option Shape) (shape : Shape) (target : Nat) : Prop :=
  ∃ weak, shapes target = some weak ∧ shape.Implies weak

/-- The shapes fit the code: every instruction executes on the shape of its place and leads to places
of weaker shapes, and so do the handlers. -/
structure Typing (setting : Setting) (limit : Nat) (shapes : Nat → Option Shape) : Prop where
  executes : ∀ {index insn shape}, setting.code[index]? = some insn → shapes index = some shape →
    ∃ after, Shape.Executes limit setting.result insn shape after ∧
      (∀ label ∈ insn.targets, ∃ target, resolve setting.labels label = .ok target ∧
        Receives shapes after target) ∧
      (insn.isTerminator = false → index + 1 < setting.code.size ∧
        Receives shapes after (index + 1))
  caught : ∀ {index shape handler}, shapes index = some shape → handler ∈ setting.handlers →
    handler.covers index → Receives shapes ⟨shape.locals, [.ref]⟩ handler.target

/-- A frame is as the typing tells for its place. -/
def Fitting (limit : Nat) (shapes : Nat → Option Shape) (index : Nat) (frame : Frame) : Prop :=
  frame.locals.length = limit ∧ ∃ shape, shapes index = some shape ∧ shape.Holds frame.kinds

/-- All known frames are as the typing tells. -/
def Follows (limit : Nat) (shapes : Nat → Option Shape) (known : Analysis) : Prop :=
  ∀ index frame, known.frame? index = some frame → Fitting limit shapes index frame

variable {setting : Setting} {limit : Nat} {shapes : Nat → Option Shape}

theorem Receives.fitting {shape : Shape} {target : Nat} {frame : Frame}
    (receives : Receives shapes shape target) (slots : frame.locals.length = limit)
    (holds : shape.Holds frame.kinds) : Fitting limit shapes target frame := by
  obtain ⟨weak, there, implies⟩ := receives
  exact ⟨slots, weak, there, holds.weaken implies⟩

theorem arrive_follows (hierarchy : Hierarchy) {progress : Progress} {index : Nat} {frame : Frame}
    (follows : Follows limit shapes progress.known)
    (inside : index < progress.known.frames.size) (fitting : Fitting limit shapes index frame) :
    ∃ next, arrive hierarchy progress index frame = .ok next ∧ Follows limit shapes next.known ∧
      next.known.frames.size = progress.known.frames.size := by
  have recorded : ∀ {merged : Frame}, Fitting limit shapes index merged →
      Follows limit shapes (record progress index merged frame.stack.length).known ∧
        (record progress index merged frame.stack.length).known.frames.size =
          progress.known.frames.size := by
    intro merged fitting
    constructor
    · intro other found there
      rw [frame?_record _ _ _ inside] at there
      split at there
      · rename_i same
        cases there
        exact same ▸ fitting
      · exact follows other found there
    · rw [(record_frames progress index merged frame.stack.length).1]
      simp
  unfold arrive
  cases known : progress.known.frame? index with
  | none => exact ⟨_, rfl, recorded fitting⟩
  | some mine =>
      obtain ⟨slots, shape, typed, holds⟩ := follows index mine known
      obtain ⟨slots', shape', typed', holds'⟩ := fitting
      cases typed.symm.trans typed'
      obtain ⟨merged, joined, slots'', holds''⟩ :=
        holds.merge index (slots.trans slots'.symm) holds'
      exact ⟨_, Outcome.bind_eq_ok.mpr ⟨merged, joined, rfl⟩,
        recorded ⟨slots''.trans slots, shape, typed, holds''⟩⟩

theorem foldlM_arrive_follows (hierarchy : Hierarchy) {passedOn : List (Nat × Frame)}
    {progress : Progress} (follows : Follows limit shapes progress.known)
    (fits : ∀ target frame, (target, frame) ∈ passedOn →
      target < progress.known.frames.size ∧ Fitting limit shapes target frame) :
    ∃ next, passedOn.foldlM (fun progress (target, frame) =>
        arrive hierarchy progress target frame) progress = .ok next ∧
      Follows limit shapes next.known := by
  induction passedOn generalizing progress with
  | nil => exact ⟨progress, rfl, follows⟩
  | cons pair rest ih =>
      obtain ⟨target, frame⟩ := pair
      obtain ⟨inside, fitting⟩ := fits target frame List.mem_cons_self
      obtain ⟨middle, arrived, follows', size⟩ :=
        arrive_follows hierarchy follows inside fitting
      obtain ⟨last, later, follows''⟩ := ih follows' (by
        intro other passed member
        rw [size]
        exact fits other passed (List.mem_cons_of_mem _ member))
      exact ⟨last, Outcome.bind_eq_ok.mpr ⟨middle, arrived, later⟩, follows''⟩

/-- A visit of typed code succeeds. -/
theorem visit_follows (typing : Typing setting limit shapes) (inRange : InRange setting)
    (progress : Progress) (index : Nat) (follows : Follows limit shapes progress.known)
    (size : progress.known.frames.size = setting.code.size) :
    ∃ next, visit setting progress index = .ok next ∧ Follows limit shapes next.known := by
  unfold visit
  split
  · rename_i insn before at_index found
    obtain ⟨slots, shape, typed, holds⟩ := follows index before found
    obtain ⟨after, executes, branches, falls⟩ := typing.executes at_index typed
    have length : before.kinds.locals.length = limit := by simpa [Frame.kinds] using slots
    obtain ⟨next, stepped, holds'⟩ := executes before.kinds length holds
    obtain ⟨frame, executed, same⟩ := Transfer.execute_of_step index stepped
    subst same
    have slots' : frame.locals.length = limit := by
      have kept := KindFrame.step_locals stepped
      simp only [Frame.kinds, List.length_map] at kept
      exact kept.trans slots
    obtain ⟨passedOn, listed⟩ := successors_ok before frame
      (fun label target => (branches label target).imp fun _ both => both.1)
      (fun continues => (falls continues).1)
    have fits : ∀ target passed, (target, passed) ∈ passedOn →
        target < progress.known.frames.size ∧ Fitting limit shapes target passed := by
      intro target passed member
      refine ⟨size ▸ mem_successors_lt inRange listed member, ?_⟩
      rcases (mem_successors listed target passed).mp member with handled | branch | following
      · obtain ⟨handler, known, covers, rfl, rfl⟩ := handled
        exact (typing.caught typed known covers).fitting slots ⟨holds.1, rfl⟩
      · obtain ⟨⟨label, member, resolved⟩, rfl⟩ := branch
        obtain ⟨place, resolved', receives⟩ := branches label member
        cases resolved.symm.trans resolved'
        exact receives.fitting slots' holds'
      · obtain ⟨continues, rfl, rfl⟩ := following
        exact (falls continues).2.fitting slots' holds'
    obtain ⟨last, folded, follows'⟩ := foldlM_arrive_follows setting.hierarchy
      (show Follows limit shapes (progress.raise frame).known from follows) fits
    refine ⟨last, ?_, follows'⟩
    simp only [Outcome.bind_eq_ok]
    exact ⟨_, executed, passedOn, listed, folded⟩
  · exact ⟨progress, rfl, follows⟩

/-- The frames of a method keep to its possible names and have all its slots. -/
theorem kept_named {hierarchy : Hierarchy} {owner : String} {method : Method} {labels : LabelTable}
    {handlers : List Handler} {result : Option Kind}
    (resolved : method.tryBlocks.mapM (resolveHandler labels) = .ok handlers) :
    Kept ⟨hierarchy, method.code.toArray, labels, handlers, result⟩ fun frame =>
      frame.Named (possibleNames hierarchy owner method) ∧
        frame.locals.length = method.maxLocals.toNat where
  executed {index insn before after} at_index start executed := by
    have inside : insn ∈ method.code := List.mem_of_getElem? (by simpa using at_index)
    have kept := KindFrame.step_locals (Transfer.execute_step index executed)
    simp only [Frame.kinds, List.length_map] at kept
    refine ⟨(Transfer.execute_named possibleNames_universe ?_ _ _ _ start.1 executed).1,
      kept.trans start.2⟩
    intro name member
    refine given_possible (List.mem_append_right _ ?_)
    exact List.mem_flatMap.mpr ⟨insn, inside, member⟩
  caught {handler before} known start := by
    obtain ⟨block, listed, found⟩ := Outcome.mapM_mem resolved known
    have caught := (resolveHandler_eq_ok found).2.2.2.2
    refine ⟨⟨start.1.locals, ?_⟩, start.2⟩
    simp only [List.mem_singleton, forall_eq, FrameValue.named_reference, caught]
    refine given_possible (List.mem_append_left _ (List.mem_append_right _ ?_))
    exact List.mem_map.mpr ⟨block, listed, rfl⟩
  merged first second joined := by
    refine ⟨Frame.merge_named possibleNames_universe first.1 second.1 joined, ?_⟩
    rw [(Frame.merge_eq_ok.mp joined).2.1]
    simp [first.2, second.2]

/-- What is true of all frames holds of the one that a method starts with. -/
theorem Prepared.tame {hierarchy : Hierarchy} {owner : String} {method : Method}
    {labels : LabelTable} {handlers : List Handler} {result : ValueType} {entry : Frame}
    (prepared : Prepared owner method labels handlers result entry) :
    Tame (possibleNames hierarchy owner method) method.maxLocals.toNat
      (.begin method.code.length entry) := by
  have some_code : 0 < method.code.length := List.length_pos_iff.mpr prepared.nonempty
  obtain ⟨_, _, _, slots, empty⟩ := Frame.entry_eq_ok prepared.entered
  constructor
  · intro index frame found
    rw [(frame?_begin found).2]
    exact ⟨entry_named prepared.entered, slots⟩
  · intro index frame found
    obtain ⟨rfl, rfl⟩ := frame?_begin found
    have listed : 0 < (Progress.begin method.code.length frame).known.frames.size := by
      simpa [Progress.begin] using some_code
    rw [frame?_eq_getElem listed] at found
    rw [empty]
    refine List.countP_pos_iff.mpr ⟨some frame, ?_, rfl⟩
    rw [← found]
    exact List.getElem_mem _

/-- The analysis of typed code succeeds and finds no frame but of the shapes of the typing. -/
theorem analyze_typed {hierarchy : Hierarchy} (acyclic : hierarchy.Acyclic) {owner : String}
    {method : Method} {labels : LabelTable} {handlers : List Handler} {result : ValueType}
    {entry : Frame} (prepared : Prepared owner method labels handlers result entry)
    (typing : Typing ⟨hierarchy, method.code.toArray, labels, handlers, result.kind⟩
      method.maxLocals.toNat shapes)
    (starts : ∃ shape, shapes 0 = some shape ∧ shape.Holds entry.kinds) :
    ∃ known, analyze hierarchy owner method = .ok known ∧
      Follows method.maxLocals.toNat shapes known := by
  have some_code : 0 < method.code.length := List.length_pos_iff.mpr prepared.nonempty
  obtain ⟨type, _, _, slots, empty⟩ := Frame.entry_eq_ok prepared.entered
  have start : Tame (possibleNames hierarchy owner method) method.maxLocals.toNat
      (.begin method.code.length entry) ∧
      Follows method.maxLocals.toNat shapes (Progress.begin method.code.length entry).known ∧
      (Progress.begin method.code.length entry).known.frames.size = method.code.length := by
    refine ⟨prepared.tame, ?_, by simp [Progress.begin]⟩
    intro index frame found
    obtain ⟨rfl, rfl⟩ := frame?_begin found
    exact ⟨slots, starts⟩
  obtain ⟨known, finished, _, follows, _⟩ := iterate_finishes
    ⟨hierarchy, method.code.toArray, labels, handlers, result.kind⟩
    (fun progress =>
      Tame (possibleNames hierarchy owner method) method.maxLocals.toNat progress ∧
        Follows method.maxLocals.toNat shapes progress.known ∧
        progress.known.frames.size = method.code.length)
    (potential hierarchy (possibleNames hierarchy owner method)
      (mostRank (possibleNames hierarchy owner method) method.maxLocals.toNat method.code.length))
    (fun progress _ => waiting_le_potential _ progress)
    (by
      rintro known index rest ⟨tame, follows, size⟩
      have size' : known.frames.size = method.code.toArray.size := by simpa using size
      obtain ⟨next, visited, follows'⟩ :=
        visit_follows typing prepared.inRange ⟨known, rest⟩ index follows size'
      obtain ⟨tame', last, falls⟩ := visit_tame acyclic possibleNames_universe prepared.inRange
        (kept_named prepared.resolved) size' tame visited
      exact ⟨next, visited, ⟨tame', follows', by simpa using last⟩, by simpa using falls⟩)
    start (begin_potential some_code slots empty)
  exact ⟨known, analyze_eq_ok.mpr ⟨labels, handlers, result, entry, prepared, finished⟩, follows⟩

end Analysis

end StackCoroutine
