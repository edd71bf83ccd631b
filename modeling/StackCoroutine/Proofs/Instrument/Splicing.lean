import Mathlib.Data.List.Find
import Mathlib.Data.List.Pairwise
import StackCoroutine.Proofs.Instrument.Detected
import StackCoroutine.Proofs.Instrument.Restoring
import StackCoroutine.Proofs.Machine.Passages

/-!
Where the parts of an instrumented method stand. The code for every instruction of the method comes at
an offset that grows with its index, so a try block of the method covers all of the code for an
instruction or none of it; the blocks around repeated calls cover nothing but these calls.
-/

namespace StackCoroutine

namespace MethodPlan

variable {plan : MethodPlan} {codes : List (Nat × PointCode)} {body : Code} {index : Nat}
  {insn : Insn}

/-- Code whose calls and monitor instructions are replaced, with indices from the given one on. -/
def spliceFrom (plan : MethodPlan) (codes : List (Nat × PointCode)) (start : Nat) (body : Code) :
    Code :=
  (body.zipIdx start).flatMap fun (insn, index) => plan.replacement codes index insn

/-- Length of the code for the instructions before an index. -/
def offset (plan : MethodPlan) (codes : List (Nat × PointCode)) (body : Code) (index : Nat) : Nat :=
  (plan.splice codes (body.take index)).length

theorem splice_append (front back : Code) :
    plan.splice codes (front ++ back) =
      plan.splice codes front ++ plan.spliceFrom codes front.length back := by
  unfold splice spliceFrom
  rw [List.zipIdx_append, List.flatMap_append, Nat.zero_add]

/-- The code for an instruction stands behind that for the instructions before it. -/
theorem splice_split (found : body[index]? = some insn) :
    plan.splice codes body = plan.splice codes (body.take index) ++
      (plan.replacement codes index insn ++
        plan.spliceFrom codes (index + 1) (body.drop (index + 1))) := by
  obtain ⟨inside, same⟩ := List.getElem?_eq_some_iff.mp found
  have parts : body = body.take index ++ insn :: body.drop (index + 1) := by
    rw [← same, List.getElem_cons_drop, List.take_append_drop]
  have length : (body.take index).length = index := by
    rw [List.length_take]
    omega
  conv_lhs => rw [parts]
  rw [splice_append, length]
  unfold spliceFrom
  rw [List.zipIdx_cons, List.flatMap_cons]

theorem offset_succ (found : body[index]? = some insn) :
    plan.offset codes body (index + 1) =
      plan.offset codes body index + (plan.replacement codes index insn).length := by
  obtain ⟨inside, same⟩ := List.getElem?_eq_some_iff.mp found
  have length : (body.take index).length = index := by
    rw [List.length_take]
    omega
  unfold offset
  rw [List.take_succ_eq_append_getElem inside, splice_append, List.length_append, length, same]
  simp [spliceFrom]

theorem offset_mono {first second : Nat} (ordered : first ≤ second) :
    plan.offset codes body first ≤ plan.offset codes body second := by
  unfold offset
  rw [← Nat.add_sub_cancel' ordered, List.take_add, splice_append, List.length_append]
  exact Nat.le_add_right _ _

theorem pointCodes_run (point : Point) (rest : List Point) (supply : LabelSupply) :
    ((plan.pointCodes (point :: rest)).run supply).1 =
      (point.index, ((plan.pointCode point).run supply).1) ::
        ((plan.pointCodes rest).run ((plan.pointCode point).run supply).2).1 := rfl

theorem pointCodes_index (points : List Point) (supply : LabelSupply) :
    ((plan.pointCodes points).run supply).1.map Prod.fst = points.map Point.index := by
  induction points generalizing supply with
  | nil => rfl
  | cons point rest ih => rw [pointCodes_run, List.map_cons, List.map_cons, ih]

theorem mem_pointCodes {points : List Point} {point : Point} (member : point ∈ points)
    (supply : LabelSupply) :
    ∃ taken, (point.index, ((plan.pointCode point).run taken).1) ∈
      ((plan.pointCodes points).run supply).1 := by
  induction points generalizing supply with
  | nil => cases member
  | cons first rest ih =>
      rw [pointCodes_run]
      rcases List.mem_cons.mp member with rfl | later
      · exact ⟨supply, List.mem_cons_self⟩
      · obtain ⟨taken, listed⟩ := ih later ((plan.pointCode first).run supply).2
        exact ⟨taken, List.mem_cons_of_mem _ listed⟩

theorem lookup_of_mem {code : PointCode} (distinct : (codes.map Prod.fst).Nodup)
    (member : (index, code) ∈ codes) : codes.lookup index = some code := by
  obtain ⟨front, back, rfl⟩ := List.append_of_mem member
  apply List.lookup_eq_some_iff.mpr
  refine ⟨front, back, rfl, ?_⟩
  intro entry earlier
  rw [List.map_append, List.nodup_append] at distinct
  have apart := distinct.2.2 entry.1 (List.mem_map_of_mem earlier) index (by simp)
  simpa using Ne.symm apart

/-- A label of the method itself stands for itself. -/
theorem replacement_label {label : Label}
    (calls : ∀ entry ∈ codes, ∃ dispatch method, body[entry.1]? = some (.invoke dispatch method))
    (found : body[index]? = some (.label label)) :
    plan.replacement codes index (.label label) = [.label label] := by
  unfold replacement
  split
  · rename_i code looked
    obtain ⟨dispatch, method, call⟩ := calls _ (Outcome.lookup_mem looked)
    cases found.symm.trans call
  · split <;> first | rfl | contradiction

end MethodPlan

theorem getElem?_of_begins {piece code : Code} {place step : Nat} {insn : Insn}
    (stands : piece <+: code.drop place) (inside : piece[step]? = some insn) :
    code[place + step]? = some insn := by
  obtain ⟨rest, split⟩ := stands
  have early : step < piece.length := (List.getElem?_eq_some_iff.mp inside).1
  rw [← List.getElem?_drop, ← split, List.getElem?_append_left early]
  exact inside

/-- A range covers the code from the one label of a block to the other. -/
structure CatchRange.Delimits (range : CatchRange) (code : Code) (block : TryBlock) : Prop where
  start : code[range.start]? = some (.label block.start)
  stop : code[range.stop]? = some (.label block.stop)
  target : code[range.target]? = some (.label block.handler)
  caught : range.caught = block.caught

namespace PreparedMethod

variable {owner : String} {method : Method} {prepared : PreparedMethod}

/-- A method that is ready to run has a range for every try block, and no others. -/
theorem prepare_ranges (made : prepare owner method = .ok prepared) :
    prepared.code.toList = method.code ∧
      (∀ range ∈ prepared.handlers, ∃ block ∈ method.tryBlocks,
        range.Delimits method.code block) ∧
      ∀ block ∈ method.tryBlocks, ∃ range ∈ prepared.handlers,
        range.Delimits method.code block := by
  simp only [prepare, Outcome.bind_eq_ok, Outcome.mapError_eq_ok, Outcome.pure_eq_ok] at made
  obtain ⟨labels, collected, handlers, mapped, _, _, rfl⟩ := made
  have delimits : ∀ block range, prepareRange labels block = .ok range →
      range.Delimits method.code block := by
    intro block range found
    simp only [prepareRange, Outcome.bind_eq_ok, Outcome.pure_eq_ok] at found
    obtain ⟨start, started, stop, stopped, target, handled, rfl⟩ := found
    exact ⟨(Analysis.labelTable_resolve collected _ _).mp started,
      (Analysis.labelTable_resolve collected _ _).mp stopped,
      (Analysis.labelTable_resolve collected _ _).mp handled, rfl⟩
  refine ⟨rfl, ?_, ?_⟩
  · intro range member
    obtain ⟨block, listed, found⟩ := Outcome.mapM_mem mapped member
    exact ⟨block, listed, delimits block range found⟩
  · intro block listed
    obtain ⟨range, member, found⟩ := Outcome.mapM_mem_of_mem mapped listed
    exact ⟨range, member, delimits block range found⟩

/-- A label is defined in one place. -/
theorem Resolves.unique (resolves : prepared.Resolves) {label : Label} {place other : Nat}
    (here : prepared.code[place]? = some (.label label))
    (there : prepared.code[other]? = some (.label label)) : place = other :=
  Except.ok.inj ((resolves label place here).symm.trans (resolves label other there))

theorem has_of_begins {piece : Code} {place : Nat}
    (stands : piece <+: prepared.code.toList.drop place) : prepared.Has place piece := by
  intro step insn inside
  rw [← Array.getElem?_toList]
  exact getElem?_of_begins stands inside

end PreparedMethod

/-- The code for an instruction begins here. -/
def MethodPlan.Parts.entry (parts : MethodPlan.Parts) (plan : MethodPlan) (body : Code)
    (index : Nat) : Nat :=
  parts.opening.length + plan.offset parts.codes body index

/-- The code is that before a method's own and then the method's own with its replacements. -/
structure MethodPlan.Joined (plan : MethodPlan) (parts : MethodPlan.Parts) (body code : Code) :
    Prop where
  whole : code = parts.opening ++ plan.splice parts.codes body
  calls : ∀ entry ∈ parts.codes, ∃ dispatch method, body[entry.1]? = some (.invoke dispatch method)
  distinct : (parts.codes.map Prod.fst).Nodup
  /-- No label is defined in two places. -/
  unique : ∀ {label : Label} {first second : Nat}, code[first]? = some (.label label) →
    code[second]? = some (.label label) → first = second

namespace MethodPlan.Joined

variable {plan : MethodPlan} {parts : MethodPlan.Parts} {body code : Code} {index : Nat} {insn : Insn}

theorem entry_succ (found : body[index]? = some insn) :
    parts.entry plan body (index + 1) =
      parts.entry plan body index + (plan.replacement parts.codes index insn).length := by
  unfold Parts.entry
  rw [offset_succ found, Nat.add_assoc]

theorem entry_mono {first second : Nat} (ordered : first ≤ second) :
    parts.entry plan body first ≤ parts.entry plan body second :=
  Nat.add_le_add_left (offset_mono ordered) _

/-- The code for an instruction is where it should be. -/
theorem placed (joined : plan.Joined parts body code) (found : body[index]? = some insn) :
    plan.replacement parts.codes index insn <+: code.drop (parts.entry plan body index) := by
  unfold Parts.entry offset
  rw [joined.whole, splice_split found, ← List.append_assoc, ← List.length_append, List.drop_left]
  exact List.prefix_append _ _

/-- A label of the method itself. -/
theorem label_placed (joined : plan.Joined parts body code) {label : Label}
    (found : body[index]? = some (.label label)) :
    code[parts.entry plan body index]? = some (.label label) := by
  have placed := joined.placed found
  rw [replacement_label joined.calls found] at placed
  exact @getElem?_of_begins _ _ _ 0 _ placed rfl

/-- The code of a point that is put in the place of its call. -/
theorem saved (joined : plan.Joined parts body code) {entry : Nat × PointCode}
    (member : entry ∈ parts.codes) :
    entry.2.save <+: code.drop (parts.entry plan body entry.1) ∧
      parts.entry plan body (entry.1 + 1) =
        parts.entry plan body entry.1 + entry.2.save.length := by
  obtain ⟨dispatch, method, found⟩ := joined.calls entry member
  have replaced : plan.replacement parts.codes entry.1 (.invoke dispatch method) = entry.2.save := by
    unfold replacement
    rw [lookup_of_mem joined.distinct (show (entry.1, entry.2) ∈ parts.codes from member)]
  have next := @entry_succ plan parts body entry.1 _ found
  rw [replaced] at next
  exact ⟨replaced ▸ joined.placed found, next⟩

/-- The code that restores the frame of a point stands before the method's own code. -/
theorem restored (joined : plan.Joined parts body code) {entry : Nat × PointCode}
    (member : entry ∈ parts.codes) : ∃ place, entry.2.restore <+: code.drop place ∧
      place + entry.2.restore.length ≤ parts.opening.length := by
  obtain ⟨front, back, split⟩ := List.append_of_mem member
  let before := parts.dispatcher ++ front.flatMap fun entry => entry.2.restore
  have opening : parts.opening = before ++ (entry.2.restore ++
      ((back.flatMap fun entry => entry.2.restore) ++ parts.start)) := by
    unfold Parts.opening
    rw [split, List.flatMap_append, List.flatMap_cons]
    simp only [before, List.append_assoc]
  clear_value before
  refine ⟨before.length, ?_, ?_⟩
  · rw [joined.whole, opening, List.append_assoc, List.drop_left, List.append_assoc]
    exact List.prefix_append _ _
  · rw [opening, List.length_append, List.length_append]
    omega

end MethodPlan.Joined

/-- A guarded call is made again between the labels of its block. -/
theorem MethodPlan.restore_repeats (plan : MethodPlan) {point : Point} {rethrow : Label}
    {guard : TryBlock} (kind : point.kind = .guardedInvoke rethrow guard) (supply : LabelSupply) :
    ∃ front back, ((plan.pointCode point).run supply).1.restore =
      front ++ ([.label guard.start, point.call, .label guard.stop] ++ back) := by
  have called : point.kind ≠ .suspend := by simp [kind]
  have repeated : repeatCall point = [.label guard.start, point.call, .label guard.stop] := by
    unfold repeatCall
    rw [kind]
    rfl
  rw [pointCode_invoke plan called, restoreInvoke_run, repeated, List.append_assoc]
  exact ⟨_, _, rfl⟩

/-- The prepared method has the code put together from the parts, with the blocks around repeated
calls before its own. -/
structure MethodPlan.Assembled (plan : MethodPlan) (parts : MethodPlan.Parts) (body : Code)
    (blocks : List TryBlock) (prepared : PreparedMethod) : Prop where
  code : prepared.code.toList = parts.opening ++ plan.splice parts.codes body
  resolves : prepared.Resolves
  ranges : ∀ range ∈ prepared.handlers, ∃ block ∈ plan.guardBlocks ++ blocks,
    range.Delimits prepared.code.toList block
  ranged : ∀ block ∈ plan.guardBlocks ++ blocks, ∃ range ∈ prepared.handlers,
    range.Delimits prepared.code.toList block
  labelled : ∀ block ∈ blocks, ∃ start stop : Nat, body[start]? = some (.label block.start) ∧
    body[stop]? = some (.label block.stop)
  coded : ∀ point ∈ plan.points, ∃ supply,
    (point.index, ((plan.pointCode point).run supply).1) ∈ parts.codes
  /-- No two points share a label. -/
  apart : (plan.points.flatMap Point.labels).Nodup
  calls : ∀ entry ∈ parts.codes, ∃ dispatch method, body[entry.1]? = some (.invoke dispatch method)
  distinct : (parts.codes.map Prod.fst).Nodup

namespace MethodPlan.Assembled

variable {plan : MethodPlan} {parts : MethodPlan.Parts} {body : Code} {blocks : List TryBlock}
  {prepared : PreparedMethod} {index : Nat} {insn : Insn}

theorem joined (assembled : plan.Assembled parts body blocks prepared) :
    plan.Joined parts body prepared.code.toList where
  whole := assembled.code
  calls := assembled.calls
  distinct := assembled.distinct
  unique := fun here there => assembled.resolves.unique (by simpa using here) (by simpa using there)

/-- The code of a point that is put in the place of its call, and that which restores its frame. -/
theorem point (assembled : plan.Assembled parts body blocks prepared) {code : PointCode}
    (member : (index, code) ∈ parts.codes) :
    prepared.Has (parts.entry plan body index) code.save ∧
      parts.entry plan body (index + 1) = parts.entry plan body index + code.save.length ∧
      ∃ place, prepared.Has place code.restore ∧
        place + code.restore.length ≤ parts.opening.length := by
  obtain ⟨saves, next⟩ := assembled.joined.saved member
  obtain ⟨place, restores, inside⟩ := assembled.joined.restored member
  exact ⟨PreparedMethod.has_of_begins saves, next, place, PreparedMethod.has_of_begins restores,
    inside⟩

/-- The dispatcher stands first. -/
theorem dispatcher (assembled : plan.Assembled parts body blocks prepared) :
    prepared.Has 0 parts.dispatcher := by
  apply PreparedMethod.has_of_begins
  rw [List.drop_zero, assembled.code, Parts.opening, List.append_assoc, List.append_assoc]
  exact List.prefix_append _ _

/-- A label of the method itself. -/
theorem label (assembled : plan.Assembled parts body blocks prepared) {label : Label}
    (found : body[index]? = some (.label label)) :
    prepared.code[parts.entry plan body index]? = some (.label label) := by
  rw [← Array.getElem?_toList]
  exact assembled.joined.label_placed found

/-- A try block of the method covers the code for the instructions between its labels. -/
theorem covers (assembled : plan.Assembled parts body blocks prepared) {block : TryBlock}
    {range : CatchRange} (delimits : range.Delimits prepared.code.toList block) {start stop : Nat}
    (starts : body[start]? = some (.label block.start))
    (stops : body[stop]? = some (.label block.stop)) {place : Nat}
    (low : parts.entry plan body index ≤ place) (high : place < parts.entry plan body (index + 1)) :
    range.covers place = (start ≤ index && index < stop) := by
  have first : range.start = parts.entry plan body start :=
    assembled.resolves.unique (by simpa using delimits.start) (assembled.label starts)
  have last : range.stop = parts.entry plan body stop :=
    assembled.resolves.unique (by simpa using delimits.stop) (assembled.label stops)
  have begins : range.start ≤ place ↔ start ≤ index := by
    rw [first]
    constructor
    · intro below
      by_contra above
      have later := @Joined.entry_mono plan parts body (index + 1) start (by omega)
      omega
    · exact fun ordered => (Joined.entry_mono ordered).trans low
  have ends : place < range.stop ↔ index < stop := by
    rw [last]
    constructor
    · intro below
      by_contra above
      have earlier := @Joined.entry_mono plan parts body stop index (by omega)
      omega
    · exact fun ordered => high.trans_le (Joined.entry_mono ordered)
  unfold CatchRange.covers
  rw [decide_eq_decide.mpr begins, decide_eq_decide.mpr ends]

/-- A guarded call that is made again stands between the labels of its block, before the method's
own code. -/
theorem guarded (assembled : plan.Assembled parts body blocks prepared) {point : Point}
    (member : point ∈ plan.points) {rethrow : Label} {block : TryBlock}
    (kind : point.kind = .guardedInvoke rethrow block) :
    ∃ place, prepared.Has place [.label block.start, point.call, .label block.stop] ∧
      place + 2 < parts.opening.length := by
  obtain ⟨supply, listed⟩ := assembled.coded point member
  obtain ⟨_, _, place, has, inside⟩ := assembled.point listed
  obtain ⟨front, back, restores⟩ := plan.restore_repeats kind supply
  rw [restores] at has inside
  refine ⟨place + front.length, has.right.left, ?_⟩
  simp only [List.length_append, List.length_cons, List.length_nil] at inside
  omega

/-- The blocks around repeated calls are told apart by their labels. -/
theorem guard_unique (assembled : plan.Assembled parts body blocks prepared) {first second : Point}
    (member : first ∈ plan.points) (member' : second ∈ plan.points) {rethrow rethrow' : Label}
    {block block' : TryBlock} (kind : first.kind = .guardedInvoke rethrow block)
    (kind' : second.kind = .guardedInvoke rethrow' block') (same : block.start = block'.start) :
    block = block' := by
  have listed : ∀ {point : Point} {rethrow block}, point.kind = .guardedInvoke rethrow block →
      block.start ∈ point.labels := by
    intro point rethrow block kind
    simp [Point.labels, kind, PointKind.labels]
  have equal : first = second := by
    by_contra differ
    have symm : Std.Symm (Function.onFun List.Disjoint Point.labels) :=
      ⟨fun _ _ apart => apart.symm⟩
    have disjoint := (List.nodup_flatMap.mp assembled.apart).2.forall member member' differ
    exact disjoint (listed kind) (same ▸ listed kind')
  subst equal
  cases kind.symm.trans kind'
  rfl

theorem mem_guardBlocks {block : TryBlock} :
    block ∈ plan.guardBlocks ↔ ∃ point ∈ plan.points, ∃ rethrow,
      point.kind = .guardedInvoke rethrow block := by
  unfold guardBlocks
  rw [List.mem_filterMap]
  constructor
  · rintro ⟨point, member, found⟩
    obtain ⟨⟨rethrow, block⟩, guard, rfl⟩ := Option.map_eq_some_iff.mp found
    refine ⟨point, member, rethrow, ?_⟩
    cases kind : point.kind <;> simp [PointKind.guard?, kind] at guard ⊢
    exact guard
  · rintro ⟨point, member, rethrow, kind⟩
    exact ⟨point, member, by simp [PointKind.guard?, kind]⟩

/-- An exception of a guarded call that is made again goes to the handler of its block. -/
theorem handler?_repeated (assembled : plan.Assembled parts body blocks prepared)
    (classes : ClassTable) {point : Point} (member : point ∈ plan.points) {rethrow : Label}
    {block : TryBlock} (kind : point.kind = .guardedInvoke rethrow block)
    (catches : block.caught = none) {place : Nat}
    (has : prepared.Has place [.label block.start, point.call, .label block.stop])
    (before : place + 1 < parts.opening.length) {target : Nat}
    (handles : prepared.code[target]? = some (.label block.handler)) (locals stack : List Value)
    (className : String) :
    Machine.handler? classes ⟨prepared, place + 1, locals, stack⟩ className = some target := by
  obtain ⟨range, listed, delimits⟩ := assembled.ranged block
    (List.mem_append_left _ (mem_guardBlocks.mpr ⟨point, member, rethrow, kind⟩))
  have ends : ∀ {range : CatchRange} {block : TryBlock} {place : Nat} {call : Insn},
      range.Delimits prepared.code.toList block →
      prepared.Has place [.label block.start, call, .label block.stop] →
      range.start = place ∧ range.stop = place + 2 := by
    intro range block place call delimits has
    exact ⟨assembled.resolves.unique (by simpa using delimits.start) has.head,
      assembled.resolves.unique (by simpa using delimits.stop) has.tail.tail.head⟩
  obtain ⟨start, stop⟩ := ends delimits has
  -- No other range covers the call.
  have only : ∀ other ∈ prepared.handlers, other.covers (place + 1) = true →
      other.target = target := by
    intro other listed covers
    unfold CatchRange.covers at covers
    obtain ⟨low, high⟩ := Bool.and_eq_true_iff.mp covers
    have low' := of_decide_eq_true low
    have high' := of_decide_eq_true high
    obtain ⟨block', listed', delimits'⟩ := assembled.ranges other listed
    rcases List.mem_append.mp listed' with guard | own
    · obtain ⟨point', member', rethrow', kind'⟩ := mem_guardBlocks.mp guard
      obtain ⟨place', has', _⟩ := assembled.guarded member' kind'
      obtain ⟨start', stop'⟩ := ends delimits' has'
      have near : place' = place ∨ place' = place + 1 := by omega
      rcases near with rfl | rfl
      · have labels : block.start = block'.start := by
          simpa using has.head.symm.trans has'.head
        obtain rfl := assembled.guard_unique member member' kind kind' labels
        exact assembled.resolves.unique (by simpa using delimits'.target) handles
      · cases has.tail.head.symm.trans has'.head
    · obtain ⟨first, _, starts, _⟩ := assembled.labelled block' own
      have above : other.start = parts.entry plan body first :=
        assembled.resolves.unique (by simpa using delimits'.start) (assembled.label starts)
      unfold Parts.entry at above
      omega
  have caught : (Machine.handler? classes ⟨prepared, place + 1, locals, stack⟩ className).isSome := by
    unfold Machine.handler?
    rw [Option.isSome_map, List.find?_isSome]
    refine ⟨range, listed, ?_⟩
    simp [CatchRange.covers, start, stop, delimits.caught, catches]
  obtain ⟨other, found⟩ := Option.isSome_iff_exists.mp caught
  rw [found]
  unfold Machine.handler? at found
  obtain ⟨handler, first, rfl⟩ := Option.map_eq_some_iff.mp found
  have applies := List.find?_some first
  rw [Bool.and_eq_true_iff] at applies
  rw [only handler (List.mem_of_find?_eq_some first) applies.1]

/-- Exceptions from all of the code for an instruction are handled in the same way. -/
theorem handler?_image (assembled : plan.Assembled parts body blocks prepared)
    (classes : ClassTable) {first second : Nat}
    (low : parts.entry plan body index ≤ first) (high : first < parts.entry plan body (index + 1))
    (low' : parts.entry plan body index ≤ second)
    (high' : second < parts.entry plan body (index + 1)) (locals stack locals' stack' : List Value)
    (className : String) :
    Machine.handler? classes ⟨prepared, first, locals, stack⟩ className =
      Machine.handler? classes ⟨prepared, second, locals', stack'⟩ className := by
  have covered : ∀ range ∈ prepared.handlers, range.covers first = range.covers second := by
    intro range listed
    obtain ⟨block, listed', delimits⟩ := assembled.ranges range listed
    rcases List.mem_append.mp listed' with guard | own
    · obtain ⟨point, member, rethrow, kind⟩ := mem_guardBlocks.mp guard
      obtain ⟨place, has, inside⟩ := assembled.guarded member kind
      have stop : range.stop = place + 2 :=
        assembled.resolves.unique (by simpa using delimits.stop) has.tail.tail.head
      have beyond : ∀ {other}, parts.entry plan body index ≤ other →
          range.covers other = false := by
        intro other above
        unfold Parts.entry at above
        unfold CatchRange.covers
        rw [stop, decide_eq_false (show ¬ other < place + 2 by omega), Bool.and_false]
      rw [beyond low, beyond low']
    · obtain ⟨start, stop, starts, stops⟩ := assembled.labelled block own
      rw [assembled.covers delimits starts stops low high,
        assembled.covers delimits starts stops low' high']
  unfold Machine.handler?
  dsimp only
  congr 1
  apply List.find?_congr
  intro range listed
  rw [covered range listed]

end MethodPlan.Assembled

end StackCoroutine
