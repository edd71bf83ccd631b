import StackCoroutine.Proofs.Frame.ControlFlow
import StackCoroutine.Proofs.Frame.Covers
import StackCoroutine.Proofs.Frame.Ordering

/-!
A frame analysis that succeeds is a fixed point: every instruction that control can come to executes on
its frame, and what it passes on stands under the frames of the places control goes to next. There is
no frame anywhere else.
-/

namespace StackCoroutine

/-- The label stands at that instruction and nowhere else. -/
def Method.Places (method : Method) (label : Label) (index : Nat) : Prop :=
  ∀ place, method.code[place]? = some (.label label) ↔ place = index

namespace Analysis

/-- There is a frame at the instruction, and the given one stands under it. -/
def Meets (hierarchy : Hierarchy) (known : Analysis) (index : Nat) (frame : Frame) : Prop :=
  ∃ there, known.frame? index = some there ∧ frame.Under hierarchy there

/-- An instruction executes on its frame, and what comes of it is allowed for wherever control goes. -/
structure Executes (hierarchy : Hierarchy) (method : Method) (result : ValueType)
    (known : Analysis) (index : Nat) (insn : Insn) (before after : Frame) : Prop where
  executed : (Transfer.execute index result.kind insn).run before = .ok ((), after)
  height : after.stack.length ≤ known.maxStack
  branches : ∀ label ∈ insn.targets, ∃ target, method.Places label target ∧
    known.Meets hierarchy target after
  next : insn.isTerminator = false → known.Meets hierarchy (index + 1) after

structure FixedPoint (hierarchy : Hierarchy) (owner : String) (method : Method)
    (known : Analysis) : Prop where
  size : known.frames.size = method.code.length
  entry : ∃ first, Frame.entry owner method = .ok first ∧ known.Meets hierarchy 0 first
  executes : ∃ result, method.resultType = .ok result ∧ ∀ index insn before,
    method.code[index]? = some insn → known.frame? index = some before →
      ∃ after, Executes hierarchy method result known index insn before after
  caught : ∀ index before block, known.frame? index = some before → block ∈ method.tryBlocks →
    method.Guards block index → ∃ target, method.Places block.handler target ∧
      known.Meets hierarchy target
        { before with stack := [.reference (block.caught.getD Names.throwable)] }
  reachable : ∀ index, (∃ frame, known.frame? index = some frame) ↔ method.Reachable index
  wide : ∀ index frame slot value, known.frame? index = some frame →
    frame.locals[slot]? = some value → value = .long ∨ value = .double →
      frame.locals[slot + 1]? = some .uninitialized
  height : ∀ index frame, known.frame? index = some frame → frame.stack.length ≤ known.maxStack

variable {hierarchy : Hierarchy} {owner : String} {method : Method} {known : Analysis}

section Prepared

variable {labels : LabelTable} {handlers : List Handler} {result : ValueType} {entry : Frame}

theorem Prepared.places (prepared : Prepared owner method labels handlers result entry)
    {label : Label} {index : Nat} (resolved : resolve labels label = .ok index) :
    method.Places label index := by
  intro place
  rw [← labelTable_resolve prepared.collected, resolved]
  exact ⟨fun same => (Except.ok.inj same).symm, fun same => same ▸ rfl⟩

/-- A frame with all slots of the method that has arrived somewhere stands under the one there. -/
theorem Arrived.meets {frame : Frame} {target : Nat}
    (slots : ∀ index frame, known.frame? index = some frame →
      frame.locals.length = method.maxLocals.toNat)
    (arrived : Arrived (Frame.Over hierarchy) known target frame)
    (mine : frame.locals.length = method.maxLocals.toNat) : known.Meets hierarchy target frame := by
  obtain ⟨there, found, lies⟩ := arrived
  exact ⟨there, found, lies.under (mine.trans (slots target there found).symm)⟩

variable (prepared : Prepared owner method labels handlers result entry)
  (sound : Sound (Frame.Over hierarchy)
    ⟨hierarchy, method.code.toArray, labels, handlers, result.kind⟩ entry ⟨known, []⟩)
  (slots : ∀ index frame, known.frame? index = some frame →
    frame.locals.length = method.maxLocals.toNat)

include prepared sound slots

theorem Sound.executes {index : Nat} {insn : Insn} {before : Frame}
    (there : method.code[index]? = some insn) (here : known.frame? index = some before) :
    ∃ after, Executes hierarchy method result known index insn before after := by
  obtain ⟨after, executed, height, branches, falls, _⟩ := sound.arrivals (by simpa using there) here
  have same : after.locals.length = method.maxLocals.toNat := by
    have kept := KindFrame.step_locals (Transfer.execute_step index executed)
    simp only [Frame.kinds, List.length_map] at kept
    exact kept.trans (slots index before here)
  refine ⟨after, executed, height, fun label listed => ?_, fun continues => ?_⟩
  · obtain ⟨target, resolved, arrived⟩ := branches label listed
    exact ⟨target, prepared.places resolved, arrived.meets slots same⟩
  · exact (falls continues).2.meets slots same

theorem Sound.catches {index : Nat} {before : Frame} {block : TryBlock}
    (here : known.frame? index = some before) (member : block ∈ method.tryBlocks)
    (guards : method.Guards block index) : ∃ target, method.Places block.handler target ∧
      known.Meets hierarchy target
        { before with stack := [.reference (block.caught.getD Names.throwable)] } := by
  obtain ⟨insn, there⟩ := guards.inside
  obtain ⟨handler, _, resolved⟩ := Outcome.mapM_mem_of_mem prepared.resolved member
  obtain ⟨_, _, _, target, _⟩ := resolveHandler_eq_ok resolved
  have placed := (labelTable_resolve prepared.collected _ _).mp target
  obtain ⟨covering, listed, covers, leads, caught⟩ :=
    prepared.handler_iff.mpr ⟨block, member, guards, placed, rfl⟩
  obtain ⟨_, _, _, _, _, handled⟩ := sound.arrivals (by simpa using there) here
  have arrived := (handled covering listed covers).2
  rw [leads, caught] at arrived
  exact ⟨handler.target, prepared.places target, arrived.meets slots (slots index before here)⟩

end Prepared

/-- In an acyclic hierarchy, an analysis that succeeds is a fixed point over the code that control can
come to. -/
theorem fixed_point (acyclic : hierarchy.Acyclic) (rooted : hierarchy.Rooted)
    (analyzed : analyze hierarchy owner method = .ok known) :
    FixedPoint hierarchy owner method known := by
  -- Merges never bring a known frame below one that has arrived, so what was passed on stays under it.
  obtain ⟨labels, handlers, result, entry, prepared, sound⟩ :=
    analyze_sound (Frame.over_joining acyclic rooted) analyzed
  have proper := analyze_proper analyzed
  have slots : ∀ index frame, known.frame? index = some frame →
      frame.locals.length = method.maxLocals.toNat :=
    fun index frame found => (proper index frame found).2
  obtain ⟨_, _, _, enough, empty⟩ := Frame.entry_eq_ok prepared.entered
  refine ⟨?_, ⟨entry, prepared.entered, sound.entry.meets slots enough⟩,
    ⟨result, prepared.resulted, fun _ _ _ => sound.executes prepared slots⟩,
    fun _ _ _ => sound.catches prepared slots, frame?_iff_reachable analyzed, ?_, ?_⟩
  · simpa using sound.size
  · intro index frame slot value found here either
    have doubled : frame.kinds.locals[slot]? = some value.kind := by simp [Frame.kinds, here]
    obtain ⟨kind, has, two⟩ : ∃ kind, value.kind = some kind ∧ kind.size = 2 := by
      rcases either with rfl | rfl <;> exact ⟨_, rfl, rfl⟩
    have next := (proper index frame found).1.wide slot kind (has ▸ doubled) two
    simpa [Frame.kinds, FrameValue.kind_eq_none] using next
  · intro index frame found
    obtain ⟨same, found', low⟩ := sound.height_le (fun lies => lies.stack.length_eq.symm) empty
      (sound.reached index frame found)
    cases found.symm.trans found'
    exact low

/-- Adds up the numbers from the argument down to one, and answers with the sum so far where that
fails. -/
def countingDown : Method where
  access := Access.isStatic
  name := "sum"
  descriptor := "(I)J"
  maxStack := 4
  maxLocals := 3
  code := [.longConst 0, .store .long 1, .label ⟨0⟩, .load .int 0, .branch .eq ⟨3⟩,
    .load .long 1, .load .int 0, .convert .int .long, .binary .long .add, .store .long 1,
    .increment 0 (-1), .label ⟨1⟩, .jump ⟨0⟩, .label ⟨2⟩, .pop, .label ⟨3⟩, .load .long 1,
    .return (some .long)]
  tryBlocks := [⟨⟨0⟩, ⟨1⟩, ⟨2⟩, some Names.arithmetic⟩]

theorem fixed_point_countingDown : Hierarchy.builtins.Acyclic ∧ Hierarchy.builtins.Rooted ∧
    ∃ known, analyze Hierarchy.builtins "demo/Sums" countingDown = .ok known ∧
      known.frame? 14 = some ⟨[.int, .long, .uninitialized], [.reference Names.arithmetic]⟩ ∧
      FixedPoint Hierarchy.builtins "demo/Sums" countingDown known := by
  have checks : ((analyze Hierarchy.builtins "demo/Sums" countingDown).toOption.any fun known =>
      known.frame? 14 = some ⟨[.int, .long, .uninitialized], [.reference Names.arithmetic]⟩) =
        true := by
    decide +kernel
  simp only [Option.any_eq_true, decide_eq_true_eq] at checks
  obtain ⟨known, found, handled⟩ := checks
  have analyzed := Outcome.toOption_eq_some.mp found
  exact ⟨Hierarchy.builtins_acyclic, Hierarchy.builtins_rooted, known, analyzed, handled,
    fixed_point Hierarchy.builtins_acyclic Hierarchy.builtins_rooted analyzed⟩

end Analysis

end StackCoroutine
