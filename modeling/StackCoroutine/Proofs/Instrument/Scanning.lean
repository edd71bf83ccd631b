import StackCoroutine.Proofs.Frame.ControlFlow
import StackCoroutine.Proofs.Instrument.Detected

/-!
The search for continuation points, instruction by instruction. What a whole search finds is read off
its steps: a point for each call at which a coroutine can be suspended and to which control comes,
every monitor instruction, and labels that the supply hands out one after the other.
-/

namespace StackCoroutine

/-- The instruction takes a monitor or gives it up. -/
def Insn.isMonitor : Insn → Bool
  | .monitorEnter | .monitorExit => true
  | _ => false

namespace LabelSupply

theorem skip_add (supply : LabelSupply) (first second : Nat) :
    supply.skip (first + second) = (supply.skip first).skip second := by
  induction first generalizing supply with
  | zero => rw [Nat.zero_add, skip]
  | succ first ih => rw [Nat.succ_add, skip, skip, ih]

theorem handOut_add (supply : LabelSupply) (first second : Nat) :
    supply.handOut (first + second) =
      supply.handOut first ++ (supply.skip first).handOut second := by
  induction first generalizing supply with
  | zero => rw [Nat.zero_add, handOut, skip, List.nil_append]
  | succ first ih => rw [Nat.succ_add, handOut, handOut, skip, ih, List.cons_append]

end LabelSupply

namespace Detection

variable {hierarchy : Hierarchy} {owner : String} {method : Method} {known : Analysis}
  {scope : Scope} {code : Code} {first supply middle : LabelSupply} {index : Nat}
  {callee : MethodRef} {found last : Detection}

/-! ### Calls -/

theorem classify_passed (dispatch : Dispatch)
    (classified : (classify scope index callee).run supply = (none, middle)) :
    (Insn.invoke dispatch callee).isContinuation scope.hierarchy = false ∧ middle = supply := by
  unfold classify at classified
  unfold Insn.isContinuation
  by_cases suspends : isSuspendCall scope.hierarchy callee = true
  · rw [if_pos suspends] at classified
    cases classified
  · rw [if_neg suspends] at classified
    cases taking : contextTaking? scope.hierarchy callee.descriptor with
    | none =>
        rw [taking] at classified
        cases classified
        exact ⟨by simp [suspends, taking], rfl⟩
    | some type =>
        rw [taking] at classified
        cases classified

theorem classify_isContinuation {kind : PointKind} {type : MethodType} (dispatch : Dispatch)
    (classified : (classify scope index callee).run supply = (some (kind, type), middle)) :
    (Insn.invoke dispatch callee).isContinuation scope.hierarchy = true := by
  unfold classify at classified
  unfold Insn.isContinuation
  rw [Bool.or_eq_true]
  split at classified
  · exact .inl (by assumption)
  split at classified
  · rename_i taking
    exact .inr (by rw [taking]; rfl)
  · cases classified

/-- A call of the suspend primitive has no labels of its kind; any other call has some if it is inside
a try block. -/
theorem classify_kind {kind : PointKind} {type : MethodType}
    (classified : (classify scope index callee).run supply = (some (kind, type), middle)) :
    kind.isSuspend = isSuspendCall scope.hierarchy callee ∧
      kind.guard?.isSome = (!isSuspendCall scope.hierarchy callee && scope.isGuarded index) ∧
      ∃ count ≤ 4, middle = supply.skip count ∧ kind.labels = supply.handOut count := by
  unfold classify at classified
  by_cases suspends : isSuspendCall scope.hierarchy callee = true
  · rw [if_pos suspends] at classified
    cases classified
    rw [suspends]
    exact ⟨rfl, rfl, 0, Nat.zero_le 4, rfl, rfl⟩
  · rw [if_neg suspends] at classified
    rw [Bool.not_eq_true] at suspends
    rw [suspends]
    cases taking : contextTaking? scope.hierarchy callee.descriptor with
    | none =>
        rw [taking] at classified
        cases classified
    | some taken =>
        have kinded : (invokeKind scope index).run supply = (kind, middle) := by
          rw [taking] at classified
          cases classified
          rfl
        unfold invokeKind at kinded
        by_cases guarded : scope.isGuarded index = true
        · rw [if_pos guarded] at kinded
          cases kinded
          rw [guarded]
          exact ⟨rfl, rfl, 4, Nat.le_refl 4, rfl, rfl⟩
        · rw [if_neg guarded] at kinded
          cases kinded
          rw [Bool.not_eq_true] at guarded
          rw [guarded]
          exact ⟨rfl, rfl, 0, Nat.zero_le 4, rfl, rfl⟩

/-! ### Steps -/

/-- What the search does at one instruction. -/
inductive Visits (scope : Scope) (index : Nat) (found : Detection) (supply : LabelSupply) :
    Insn → Detection → LabelSupply → Prop where
  | passed {insn} : insn.isContinuation scope.hierarchy = false → insn.isMonitor = false →
      Visits scope index found supply insn found supply
  | monitor {insn} (enters : Bool) : insn.isContinuation scope.hierarchy = false →
      Visits scope index found supply insn
        { found with monitorUses := found.monitorUses ++ [⟨index, enters⟩] } supply
  | dead {dispatch callee kind type middle} :
      (classify scope index callee).run supply = (some (kind, type), middle) →
      scope.analysis.frame? index = none →
      Visits scope index found supply (.invoke dispatch callee) found middle
  | point {dispatch callee kind type middle frame} (line : Option UInt32) :
      (classify scope index callee).run supply = (some (kind, type), middle) →
      scope.analysis.frame? index = some frame →
      Visits scope index found supply (.invoke dispatch callee)
        { found with points := found.points ++ [⟨found.points.length, kind, index, dispatch, callee,
          type, frame, line, ⟨middle.next⟩, ⟨middle.next + 1⟩⟩] }
        ⟨middle.next + 1 + 1⟩

/-- The search has come to an index of the code. -/
inductive Scanned (scope : Scope) (code : Code) (first : LabelSupply) :
    Nat → Detection → LabelSupply → Prop where
  | start : Scanned scope code first 0 ⟨[], []⟩ first
  | next {index insn found supply later rest} : Scanned scope code first index found supply →
      code[index]? = some insn → Visits scope index found supply insn later rest →
      Scanned scope code first (index + 1) later rest

theorem scan_scanned {rest : Code} {line : Option UInt32} {final : LabelSupply}
    (before : Scanned scope code first index found supply) (following : code.drop index = rest)
    (inside : index ≤ code.length)
    (searched : (scan scope index line found rest).run.run supply = (.ok last, final)) :
    Scanned scope code first code.length last final := by
  induction rest generalizing index line found supply with
  | nil =>
      cases searched
      have all : index = code.length := Nat.le_antisymm inside (List.drop_eq_nil_iff.mp following)
      exact all ▸ before
  | cons insn rest ih =>
      have here : code[index]? = some insn := by
        rw [← Nat.add_zero index, ← List.getElem?_drop, following]
        rfl
      have following' : code.drop (index + 1) = rest := by
        rw [← List.tail_drop, following]
        rfl
      have onward : ∀ {line later supply'}, Visits scope index found supply insn later supply' →
          (scan scope (index + 1) line later rest).run.run supply' = (.ok last, final) →
          Scanned scope code first code.length last final :=
        fun visits => ih (before.next here visits) following' (List.getElem?_eq_some_iff.mp here).1
      cases insn
      case monitorEnter => exact onward (.monitor true rfl) searched
      case monitorExit => exact onward (.monitor false rfl) searched
      case invokeDynamic name descriptor =>
        -- A dynamic call that takes the context ends the search, any other is passed.
        have unfolded : scan scope index line found (.invokeDynamic name descriptor :: rest) = (do
            if (contextTaking? scope.hierarchy descriptor).isSome then
              throw (.dynamicCallSite scope.label name descriptor)
            scan scope (index + 1) line found rest) := rfl
        rw [unfolded] at searched
        split at searched
        · cases searched
        · exact onward (.passed rfl rfl) searched
      case invoke dispatch callee =>
        revert searched
        apply scan_invoke (motive := fun outcome => outcome = (.ok last, final) →
          Scanned scope code first code.length last final)
        case passed =>
          intro middle classified
          obtain ⟨other, rfl⟩ := classify_passed dispatch classified
          exact onward (.passed other rfl)
        case refused =>
          intro middle refused
          cases refused
        case dead => exact fun _ _ _ classified framed => onward (.dead classified framed)
        case reached => exact fun _ _ _ _ classified framed => onward (.point line classified framed)
      all_goals exact onward (.passed rfl rfl) searched

/-- The search of a method with its analysis. -/
def Scope.ofLabels (hierarchy : Hierarchy) (owner : String) (method : Method) (known : Analysis)
    (labels : LabelTable) : Scope where
  hierarchy
  label := method.label owner
  isConstructor := method.isConstructor
  analysis := known
  guarded := method.tryBlocks.filterMap fun block => do
    return (← labels.find? block.start, ← labels.find? block.stop)

theorem ofMethod_scanned {final : LabelSupply}
    (searched : (ofMethod hierarchy owner method known).run.run supply = (.ok last, final)) :
    ∃ labels, Analysis.labelTable method.code = .ok labels ∧
      Scanned (.ofLabels hierarchy owner method known labels) method.code supply
        method.code.length last final := by
  unfold ofMethod at searched
  dsimp only at searched
  split at searched
  · cases searched
  · rename_i labels collected
    exact ⟨labels, collected, scan_scanned .start rfl (Nat.zero_le _) searched⟩

/-- The next point that is found: a call at the index, which can suspend and has a frame. -/
structure Added (hierarchy : Hierarchy) (code : List Insn) (known : Analysis) (points : List Point)
    (index : Nat) (point : Point) : Prop where
  here : point.index = index
  number : point.number = points.length
  call : code[index]? = some point.call
  continuation : point.call.isContinuation hierarchy = true
  framed : known.frame? index = some point.frame

/-- What every point found keeps, the search keeps. -/
theorem ofMethod_keeps (good : Nat → List Point → Prop)
    (next : ∀ index points, good index points → good (index + 1) points)
    (add : ∀ index points point, good index points →
      Added hierarchy method.code known points index point → good (index + 1) (points ++ [point]))
    (start : good 0 [])
    (searched : ((ofMethod hierarchy owner method known).run.run supply).1 = .ok last) :
    good method.code.length last.points := by
  rcases outcome : (ofMethod hierarchy owner method known).run.run supply with ⟨result, final⟩
  rw [outcome] at searched
  obtain rfl : result = .ok last := searched
  obtain ⟨labels, _, scanned⟩ := ofMethod_scanned outcome
  clear outcome
  generalize method.code.length = index at scanned ⊢
  induction scanned with
  | start => exact start
  | next _ here visits ih =>
      cases visits with
      | passed | monitor | dead => exact next _ _ ih
      | point line classified framed =>
          exact add _ _ _ ih ⟨rfl, rfl, here, classify_isContinuation _ classified, framed⟩

/-- A coroutine can be suspended at the place, and control comes there. -/
def Scope.Continues (scope : Scope) (code : Code) (place : Nat) : Prop :=
  ∃ insn frame, code[place]? = some insn ∧ insn.isContinuation scope.hierarchy = true ∧
    scope.analysis.frame? place = some frame

namespace Scanned

/-- Every point is the call at its index, and is guarded if a try block is around it. -/
theorem point_kind (scanned : Scanned scope code first index found supply) :
    ∀ point ∈ found.points, code[point.index]? = some point.call ∧
      scope.analysis.frame? point.index = some point.frame ∧
      point.kind.isSuspend = isSuspendCall scope.hierarchy point.method ∧
      point.kind.guard?.isSome =
        (!isSuspendCall scope.hierarchy point.method && scope.isGuarded point.index) := by
  induction scanned with
  | start => exact fun _ member => nomatch member
  | next before here visits ih =>
      cases visits with
      | passed | monitor | dead => exact ih
      | point line classified framed =>
          obtain ⟨suspends, guarded, _⟩ := classify_kind classified
          intro point member
          rcases List.mem_append.mp member with old | new
          · exact ih point old
          · cases List.mem_singleton.mp new
            exact ⟨here, framed, suspends, guarded⟩

/-- Every monitor instruction is noted. -/
theorem monitor_noted (scanned : Scanned scope code first index found supply) {place : Nat}
    {insn : Insn} (early : place < index) (there : code[place]? = some insn)
    (monitor : insn.isMonitor = true) : ∃ use ∈ found.monitorUses, use.index = place := by
  induction scanned with
  | start => exact absurd early (Nat.not_lt_zero place)
  | @next index _ found supply later rest before here visits ih =>
      by_cases at_index : place = index
      · subst at_index
        cases here.symm.trans there
        cases visits with
        | passed _ plain => cases plain.symm.trans monitor
        | monitor => exact ⟨_, List.mem_append_right _ (List.mem_singleton_self _), rfl⟩
        | dead | point => cases monitor
      · have noted := ih (by omega)
        cases visits with
        | passed | dead | point => exact noted
        | monitor => exact noted.imp fun _ use => use.imp_left (List.mem_append_left _)

/-- The labels of the points are handed out one after the other, no more than six for an instruction. -/
theorem handed_out (scanned : Scanned scope code first index found supply) :
    ∃ count ≤ 6 * index, supply = first.skip count ∧
      ∀ point ∈ found.points, point.labels ⊆ first.handOut count := by
  induction scanned with
  | start => exact ⟨0, Nat.le_refl _, rfl, fun _ member => nomatch member⟩
  | @next index _ found supply later rest before here visits ih =>
      obtain ⟨count, few, rfl, handed⟩ := ih
      -- Labels that have been handed out stay so.
      have still : ∀ more, ∀ point ∈ found.points, point.labels ⊆ first.handOut (count + more) := by
        intro more point member
        rw [first.handOut_add]
        exact List.subset_append_of_subset_left _ (handed point member)
      cases visits with
      | passed | monitor => exact ⟨count, by omega, rfl, handed⟩
      | dead classified _ =>
          obtain ⟨_, _, more, most, rfl, _⟩ := classify_kind classified
          exact ⟨count + more, by omega, (first.skip_add count more).symm, still more⟩
      | @point _ _ kind _ _ _ line classified framed =>
          obtain ⟨_, _, more, most, rfl, kinds⟩ := classify_kind classified
          refine ⟨count + (more + 2), by omega, ?_, ?_⟩
          · rw [first.skip_add, LabelSupply.skip_add]
            rfl
          · intro point member
            rcases List.mem_append.mp member with old | new
            · exact still _ point old
            -- The labels of the kind are taken before those of the point itself.
            · cases List.mem_singleton.mp new
              rw [first.handOut_add, LabelSupply.handOut_add, ← kinds]
              intro label listed
              rcases List.mem_cons.mp listed with rfl | listed
              · simp [LabelSupply.handOut]
              rcases List.mem_cons.mp listed with rfl | listed
              · simp [LabelSupply.handOut]
              · simp [listed]

end Scanned

end Detection

end StackCoroutine
