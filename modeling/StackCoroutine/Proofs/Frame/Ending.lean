import StackCoroutine.Proofs.Frame.FixedPoint
import StackCoroutine.Proofs.Frame.Typing
import StackCoroutine.Proofs.Searches

/-!
The worklist of the frame analysis as it runs, without a bound on its visits. Each rule takes one
instruction off the queue, so that a derivation is a run that has come to its end. In an acyclic
hierarchy every run does: the bound that an analysis computes from its method is never used up.
-/

namespace StackCoroutine.Analysis

/-- The waiting instructions are visited, so many in all, until none waits or a visit fails. -/
inductive Runs (setting : Setting) : Nat → Progress → Except AnalyzeError Analysis → Prop where
  | idle {known : Analysis} : Runs setting 0 ⟨known, []⟩ (.ok known)
  | stopped {known : Analysis} {index : Nat} {rest : List Nat} {cause : AnalyzeError} :
      visit setting ⟨known, rest⟩ index = .error cause →
      Runs setting 1 ⟨known, index :: rest⟩ (.error cause)
  | visited {known : Analysis} {index visits : Nat} {rest : List Nat} {next : Progress}
      {outcome : Except AnalyzeError Analysis} :
      visit setting ⟨known, rest⟩ index = .ok next → Runs setting visits next outcome →
      Runs setting (visits + 1) ⟨known, index :: rest⟩ outcome

/-- What an analysis reads off its method before the first visit. -/
def start (hierarchy : Hierarchy) (owner : String) (method : Method) :
    Except AnalyzeError (Setting × Progress) := do
  let labels ← labelTable method.code
  let handlers ← method.tryBlocks.mapM (resolveHandler labels)
  let result ← ofDescriptor method.resultType
  if method.code.isEmpty then throw .fallsOffEnd
  let entry ← Frame.entry owner method
  return (⟨hierarchy, method.code.toArray, labels, handlers, result.kind⟩,
    .begin method.code.length entry)

/-- An analysis without a bound ends after so many visits. -/
inductive Ends (hierarchy : Hierarchy) (owner : String) (method : Method) :
    Nat → Except AnalyzeError Analysis → Prop where
  | refused {cause : AnalyzeError} : start hierarchy owner method = .error cause →
      Ends hierarchy owner method 0 (.error cause)
  | visited {setting : Setting} {progress : Progress} {visits : Nat}
      {outcome : Except AnalyzeError Analysis} :
      start hierarchy owner method = .ok (setting, progress) →
      Runs setting visits progress outcome → Ends hierarchy owner method visits outcome

variable {setting : Setting} {hierarchy : Hierarchy} {owner : String} {method : Method}

/-- A run has one end. -/
theorem Runs.unique {visits visits' : Nat} {progress : Progress}
    {outcome outcome' : Except AnalyzeError Analysis} (one : Runs setting visits progress outcome)
    (other : Runs setting visits' progress outcome') : visits = visits' ∧ outcome = outcome' := by
  induction one generalizing visits' with
  | idle =>
      cases other
      exact ⟨rfl, rfl⟩
  | stopped failed =>
      cases other with
      | stopped failed' =>
          cases failed.symm.trans failed'
          exact ⟨rfl, rfl⟩
      | visited succeeded => cases failed.symm.trans succeeded
  | visited succeeded _ ih =>
      cases other with
      | stopped failed => cases failed.symm.trans succeeded
      | visited succeeded' later =>
          cases succeeded.symm.trans succeeded'
          obtain ⟨same, result⟩ := ih later
          exact ⟨congrArg (· + 1) same, result⟩

/-- Visits that lower a measure come to an end, as those of the bounded run do. -/
theorem iterate_runs (setting : Setting) (holds : Progress → Prop) (measure : Progress → Nat)
    (waits : ∀ progress, holds progress → progress.waiting.length ≤ measure progress)
    (step : ∀ known index rest next, holds ⟨known, index :: rest⟩ →
      visit setting ⟨known, rest⟩ index = .ok next →
      holds next ∧ measure next < measure ⟨known, index :: rest⟩)
    {bound : Nat} {progress : Progress} (start : holds progress)
    (enough : measure progress ≤ bound) :
    ∃ visits ≤ bound, Runs setting visits progress (iterate setting bound progress) := by
  induction bound generalizing progress with
  | zero =>
      -- The measure is used up, so nothing waits.
      have few := waits progress start
      obtain ⟨known, waiting⟩ := progress
      cases List.length_eq_zero_iff.mp (Nat.le_zero.mp (few.trans enough))
      exact ⟨0, Nat.le_refl 0, .idle⟩
  | succ bound ih =>
      obtain ⟨known, waiting⟩ := progress
      cases waiting with
      | nil => exact ⟨0, Nat.zero_le _, .idle⟩
      | cons index rest =>
          cases visited : visit setting ⟨known, rest⟩ index with
          | error cause =>
              have ends : iterate setting (bound + 1) ⟨known, index :: rest⟩ = .error cause := by
                simp [iterate, visited, bind, Except.bind]
              rw [ends]
              exact ⟨1, Nat.le_add_left 1 bound, .stopped visited⟩
          | ok next =>
              have goes_on : iterate setting (bound + 1) ⟨known, index :: rest⟩ =
                  iterate setting bound next := by
                simp [iterate, visited, bind, Except.bind]
              obtain ⟨holds', lower⟩ := step known index rest next start visited
              obtain ⟨visits, few, runs⟩ := ih holds' (by omega)
              rw [goes_on]
              exact ⟨visits + 1, Nat.succ_le_succ few, .visited visited runs⟩

/-- The start of an analysis followed by its bounded run is the analysis. -/
theorem analyze_eq_start (hierarchy : Hierarchy) (owner : String) (method : Method) :
    analyze hierarchy owner method = start hierarchy owner method >>= fun begun =>
      iterate begun.1 (visitBound hierarchy owner method) begun.2 := by
  unfold analyze start
  simp only [bind_assoc]
  refine bind_congr fun labels => bind_congr fun handlers => bind_congr fun result => ?_
  split
  · rfl
  · cases Frame.entry owner method <;> rfl

theorem start_eq_ok {progress : Progress}
    (begun : start hierarchy owner method = .ok (setting, progress)) :
    ∃ labels handlers result entry, Prepared owner method labels handlers result entry ∧
      setting = ⟨hierarchy, method.code.toArray, labels, handlers, result.kind⟩ ∧
      progress = .begin method.code.length entry := by
  simp only [start, Outcome.bind_eq_ok] at begun
  obtain ⟨labels, collected, handlers, resolved, result, typed, begun⟩ := begun
  split at begun
  · exact absurd begun Outcome.throw_bind_ne_ok
  rename_i some_code
  simp only [Outcome.bind_eq_ok] at begun
  obtain ⟨entry, entered, same⟩ := begun
  cases Outcome.pure_eq_ok.mp same
  exact ⟨labels, handlers, result, entry,
    ⟨collected, resolved, Outcome.mapError_eq_ok.mp typed, by simpa using some_code, entered⟩,
    rfl, rfl⟩

/-- Every visit lowers the potential, so there are as many as it starts with at most. -/
theorem Prepared.runs (acyclic : hierarchy.Acyclic) {labels : LabelTable}
    {handlers : List Handler} {result : ValueType} {entry : Frame}
    (prepared : Prepared owner method labels handlers result entry) :
    ∃ visits ≤ visitBound hierarchy owner method,
      Runs ⟨hierarchy, method.code.toArray, labels, handlers, result.kind⟩ visits
        (.begin method.code.length entry)
        (iterate ⟨hierarchy, method.code.toArray, labels, handlers, result.kind⟩
          (visitBound hierarchy owner method) (.begin method.code.length entry)) := by
  have some_code : 0 < method.code.length := List.length_pos_iff.mpr prepared.nonempty
  obtain ⟨_, _, _, slots, empty⟩ := Frame.entry_eq_ok prepared.entered
  -- Frames that name possible classes only are kept so by every visit.
  refine iterate_runs _
    (fun progress =>
      Tame (possibleNames hierarchy owner method) method.maxLocals.toNat progress ∧
        progress.known.frames.size = method.code.length)
    (potential hierarchy (possibleNames hierarchy owner method)
      (mostRank (possibleNames hierarchy owner method) method.maxLocals.toNat method.code.length))
    (fun progress _ => waiting_le_potential _ progress) ?_
    ⟨prepared.tame, by simp [Progress.begin]⟩ (begin_potential some_code slots empty)
  rintro known index rest next ⟨tame, size⟩ visited
  obtain ⟨tame', last, falls⟩ := visit_tame acyclic possibleNames_universe prepared.inRange
    (kept_named prepared.resolved) (by simpa using size) tame visited
  exact ⟨⟨tame', by simpa using last⟩, by simpa using falls⟩

/-- In an acyclic hierarchy an analysis without a bound ends, with what the bounded one gives and
within its bound, and so does every search that its merges make. -/
theorem analyze_ends (acyclic : hierarchy.Acyclic) (owner : String) (method : Method) :
    (∃ visits ≤ visitBound hierarchy owner method, ∀ visits' outcome,
      Ends hierarchy owner method visits' outcome ↔
        visits' = visits ∧ outcome = analyze hierarchy owner method) ∧
    ∀ a b, (∀ answer, hierarchy.Assigns a b answer ↔ answer = hierarchy.isAssignable a b) ∧
      ∀ name, hierarchy.Joins a b name ↔ name = hierarchy.commonSuper a b := by
  constructor
  · rw [analyze_eq_start]
    cases begun : start hierarchy owner method with
    | error cause =>
        refine ⟨0, Nat.zero_le _, fun visits' outcome => ⟨?_, ?_⟩⟩
        · intro ends
          cases ends with
          | refused failed =>
              cases begun.symm.trans failed
              exact ⟨rfl, rfl⟩
          | visited succeeded => cases begun.symm.trans succeeded
        · rintro ⟨rfl, rfl⟩
          exact .refused begun
    | ok pair =>
        obtain ⟨setting, progress⟩ := pair
        obtain ⟨labels, handlers, result, entry, prepared, rfl, rfl⟩ := start_eq_ok begun
        -- The unbounded run is unique, so the one that the bounded analysis makes is the only one.
        obtain ⟨visits, few, runs⟩ := prepared.runs acyclic
        refine ⟨visits, few, fun visits' outcome => ⟨?_, ?_⟩⟩
        · intro ends
          cases ends with
          | refused failed => cases begun.symm.trans failed
          | visited succeeded runs' =>
              cases begun.symm.trans succeeded
              exact runs'.unique runs
        · rintro ⟨rfl, rfl⟩
          exact .visited begun runs
  · intro a b
    constructor
    · intro answer
      constructor
      · intro assigns
        exact assigns.unique (.isAssignable acyclic a b)
      · rintro rfl
        exact .isAssignable acyclic a b
    · intro name
      constructor
      · intro joins
        exact joins.unique (.commonSuper acyclic a b)
      · rintro rfl
        exact .commonSuper acyclic a b

/-- The loop is left after its frames have settled, far below the bound. -/
theorem analyze_ends_countingDown : Hierarchy.builtins.Acyclic ∧
    ∃ visits ≤ visitBound Hierarchy.builtins "demo/Sums" countingDown,
      (analyze Hierarchy.builtins "demo/Sums" countingDown).toOption.isSome = true ∧
      Ends Hierarchy.builtins "demo/Sums" countingDown visits
        (analyze Hierarchy.builtins "demo/Sums" countingDown) := by
  obtain ⟨⟨visits, few, ends⟩, _⟩ :=
    analyze_ends Hierarchy.builtins_acyclic "demo/Sums" countingDown
  exact ⟨Hierarchy.builtins_acyclic, visits, few, by decide +kernel, (ends _ _).mpr ⟨rfl, rfl⟩⟩

end StackCoroutine.Analysis
