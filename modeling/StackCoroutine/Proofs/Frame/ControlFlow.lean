import Mathlib.Logic.Relation
import StackCoroutine.Proofs.Frame.Joins

/-!
Where control can go in a method, read off its code: from an instruction to its branch targets, to the
next instruction and to the handlers of the try blocks around it. An analysis that succeeds knows a
frame at exactly the instructions that control can come to in this way.
-/

namespace StackCoroutine

namespace Method

variable {method : Method}

/-- The instruction lies between the labels of the block. -/
def Guards (method : Method) (block : TryBlock) (index : Nat) : Prop :=
  ∃ start stop : Nat, method.code[start]? = some (.label block.start) ∧
    method.code[stop]? = some (.label block.stop) ∧ start ≤ index ∧ index < stop

/-- Control can go from one instruction to another in one step. -/
inductive Edge (method : Method) (index : Nat) : Nat → Prop where
  | branch {insn : Insn} {label : Label} {target : Nat} : method.code[index]? = some insn →
      label ∈ insn.targets → method.code[target]? = some (.label label) → Edge method index target
  | next {insn : Insn} : method.code[index]? = some insn → insn.isTerminator = false →
      Edge method index (index + 1)
  | caught {block : TryBlock} {target : Nat} : block ∈ method.tryBlocks →
      method.Guards block index → method.code[target]? = some (.label block.handler) →
      Edge method index target

/-- Control can come to an instruction from the start of the method. -/
abbrev Reachable (method : Method) (index : Nat) : Prop := Relation.ReflTransGen method.Edge 0 index

theorem Guards.inside {block : TryBlock} {index : Nat} (guards : method.Guards block index) :
    ∃ insn, method.code[index]? = some insn := by
  obtain ⟨start, stop, _, there, _, before⟩ := guards
  have inside : stop < method.code.length := (List.getElem?_eq_some_iff.mp there).1
  exact ⟨_, List.getElem?_eq_getElem (Nat.lt_trans before inside)⟩

end Method

namespace Analysis

variable {hierarchy : Hierarchy} {above : Frame → Frame → Prop} {owner : String}
  {method : Method} {labels : LabelTable} {handlers : List Handler} {result : ValueType}
  {entry : Frame} {known : Analysis}

section Prepared

variable (prepared : Prepared owner method labels handlers result entry)

include prepared

theorem Prepared.handler_iff {caught : String} {index target : Nat} :
    (∃ handler ∈ handlers, handler.covers index ∧ handler.target = target ∧
      handler.caught = caught) ↔
      ∃ block ∈ method.tryBlocks, method.Guards block index ∧
        method.code[target]? = some (.label block.handler) ∧
        block.caught.getD Names.throwable = caught := by
  have placed := labelTable_resolve prepared.collected
  have covering : ∀ {handler : Handler} {block : TryBlock},
      resolveHandler labels block = .ok handler →
      (handler.covers index ↔ method.Guards block index) ∧
        method.code[handler.target]? = some (.label block.handler) ∧
        handler.caught = block.caught.getD Names.throwable := by
    intro handler block resolved
    obtain ⟨start, stop, _, target, caught⟩ := resolveHandler_eq_ok resolved
    refine ⟨?_, (placed _ _).mp target, caught⟩
    simp only [Handler.covers, Bool.and_eq_true, decide_eq_true_eq]
    constructor
    · exact fun inside => ⟨_, _, (placed _ _).mp start, (placed _ _).mp stop, inside⟩
    · rintro ⟨first, last, from_label, to_label, inside⟩
      cases start.symm.trans ((placed _ _).mpr from_label)
      cases stop.symm.trans ((placed _ _).mpr to_label)
      exact inside
  constructor
  · rintro ⟨handler, member, covers, rfl, rfl⟩
    obtain ⟨block, listed, resolved⟩ := Outcome.mapM_mem prepared.resolved member
    obtain ⟨guards, there, caught⟩ := covering resolved
    exact ⟨block, listed, guards.mp covers, there, caught.symm⟩
  · rintro ⟨block, listed, guards, there, rfl⟩
    obtain ⟨handler, member, resolved⟩ := Outcome.mapM_mem_of_mem prepared.resolved listed
    obtain ⟨covers, here, caught⟩ := covering resolved
    cases ((placed _ _).mpr here).symm.trans ((placed _ _).mpr there)
    exact ⟨handler, member, covers.mpr guards, rfl, caught⟩

/-- The analysis follows control wherever it can go. -/
theorem Prepared.leads_iff {index target : Nat} :
    Leads ⟨hierarchy, method.code.toArray, labels, handlers, result.kind⟩ index target ↔
      method.Edge index target := by
  have placed := labelTable_resolve prepared.collected
  simp only [Leads, List.getElem?_toArray, placed]
  constructor
  · rintro ⟨insn, here, ⟨handler, member, covers, same⟩ | ⟨label, listed, there⟩ | ⟨continues, rfl⟩⟩
    · obtain ⟨block, listed, guards, there, _⟩ :=
        prepared.handler_iff.mp ⟨handler, member, covers, same, rfl⟩
      exact .caught listed guards there
    · exact .branch here listed there
    · exact .next here continues
  · rintro (⟨here, listed, there⟩ | ⟨here, continues⟩ | ⟨listed, guards, there⟩)
    · exact ⟨_, here, .inr (.inl ⟨_, listed, there⟩)⟩
    · exact ⟨_, here, .inr (.inr ⟨continues, rfl⟩)⟩
    · obtain ⟨insn, here⟩ := guards.inside
      obtain ⟨handler, member, covers, same, _⟩ :=
        prepared.handler_iff.mpr ⟨_, listed, guards, there, rfl⟩
      exact ⟨insn, here, .inl ⟨handler, member, covers, same⟩⟩

theorem Prepared.reached_iff {index : Nat} :
    Reached ⟨hierarchy, method.code.toArray, labels, handlers, result.kind⟩ index ↔
      method.Reachable index := by
  constructor
  · intro reached
    induction reached with
    | start => exact .refl
    | next _ leads before => exact before.tail (prepared.leads_iff.mp leads)
  · intro path
    induction path with
    | refl => exact .start
    | tail _ edge before => exact before.next (prepared.leads_iff.mpr edge)

end Prepared

/-- Wherever control can go from a known frame, a frame has arrived and been measured. -/
theorem Sound.leads {setting : Setting} (sound : Sound above setting entry ⟨known, []⟩)
    {index target : Nat} {frame : Frame} (here : known.frame? index = some frame)
    (leads : Leads setting index target) :
    ∃ passedOn, passedOn.stack.length ≤ known.maxStack ∧ Arrived above known target passedOn := by
  obtain ⟨insn, there, ways⟩ := leads
  obtain ⟨after, _, height, branches, falls, handled⟩ := sound.arrivals there here
  rcases ways with ⟨handler, listed, covers, rfl⟩ | ⟨label, listed, resolved⟩ | ⟨continues, rfl⟩
  · obtain ⟨height, arrived⟩ := handled handler listed covers
    exact ⟨{ frame with stack := [.reference handler.caught] }, height, arrived⟩
  · obtain ⟨place, resolved', arrived⟩ := branches label listed
    cases resolved.symm.trans resolved'
    exact ⟨after, height, arrived⟩
  · exact ⟨after, height, (falls continues).2⟩

/-- Control finds a frame wherever it can come, and none is higher than the analysis allows for. -/
theorem Sound.height_le {setting : Setting} (sound : Sound above setting entry ⟨known, []⟩)
    (heights : ∀ {high low}, above high low → high.stack.length = low.stack.length)
    (empty : entry.stack = []) {index : Nat} (reached : Reached setting index) :
    ∃ frame, known.frame? index = some frame ∧ frame.stack.length ≤ known.maxStack := by
  -- Along the way control takes: a frame is passed on wherever it can go, and measured there.
  induction reached with
  | start =>
      obtain ⟨first, found, above⟩ := sound.entry
      exact ⟨first, found, by simp [heights above, empty]⟩
  | next _ leads before =>
      obtain ⟨frame, here, _⟩ := before
      obtain ⟨passedOn, low, there, found, above⟩ := sound.leads here leads
      exact ⟨there, found, heights above ▸ low⟩

/-- An analysis knows frames where control can come and nowhere else. -/
theorem frame?_iff_reachable (analyzed : analyze hierarchy owner method = .ok known) (index : Nat) :
    (∃ frame, known.frame? index = some frame) ↔ method.Reachable index := by
  obtain ⟨labels, handlers, result, entry, prepared, sound⟩ :=
    analyze_sound (Frame.within_joining hierarchy) analyzed
  obtain ⟨_, _, _, _, empty⟩ := Frame.entry_eq_ok prepared.entered
  constructor
  · exact fun ⟨frame, found⟩ => prepared.reached_iff.mp (sound.reached index frame found)
  · intro reached
    obtain ⟨frame, found, _⟩ :=
      sound.height_le (fun within => within.1) empty (prepared.reached_iff.mpr reached)
    exact ⟨frame, found⟩

end Analysis

end StackCoroutine
