import Mathlib.Algebra.Ring.Nat

/-!
Taking apart chains of results that may be errors. A chain succeeds exactly when each of its links
does.
-/

namespace StackCoroutine.Outcome

variable {ε δ α β : Type}

theorem bind_eq_ok {result : Except ε α} {next : α → Except ε β} {last : β} :
    (result >>= next) = .ok last ↔ ∃ value, result = .ok value ∧ next value = .ok last := by
  cases result <;> simp [bind, Except.bind]

theorem mapError_eq_ok {change : ε → δ} {result : Except ε α} {value : α} :
    result.mapError change = .ok value ↔ result = .ok value := by
  cases result <;> simp [Except.mapError]

theorem throw_ne_ok {cause : ε} {value : α} : (throw cause : Except ε α) ≠ .ok value := by
  simp [throw, throwThe, MonadExceptOf.throw]

theorem throw_bind_ne_ok {cause : ε} {next : α → Except ε β} {value : β} :
    (throw cause >>= next) ≠ .ok value := by
  intro success
  obtain ⟨_, refused, _⟩ := bind_eq_ok.mp success
  exact throw_ne_ok refused

theorem pure_eq_ok {first value : α} : (pure first : Except ε α) = .ok value ↔ first = value := by
  simp [pure, Except.pure]

/-- A list of results succeeds element by element. -/
theorem mapM_cons_eq_ok {f : α → Except ε β} {first : α} {rest : List α} {results : List β} :
    (first :: rest).mapM f = .ok results ↔
      ∃ value values, f first = .ok value ∧ rest.mapM f = .ok values ∧
        results = value :: values := by
  simp only [List.mapM_cons, bind_eq_ok, pure_eq_ok]
  grind

theorem mapM_mem {f : α → Except ε β} {items : List α} {results : List β}
    (mapped : items.mapM f = .ok results) {result : β} (member : result ∈ results) :
    ∃ item ∈ items, f item = .ok result := by
  induction items generalizing results with
  | nil =>
      simp only [List.mapM_nil, pure_eq_ok] at mapped
      simp [← mapped] at member
  | cons first rest ih =>
      obtain ⟨value, values, here, later, rfl⟩ := mapM_cons_eq_ok.mp mapped
      rcases List.mem_cons.mp member with rfl | tail
      · exact ⟨first, List.mem_cons_self, here⟩
      · obtain ⟨item, inside, found⟩ := ih later tail
        exact ⟨item, List.mem_cons_of_mem _ inside, found⟩

theorem mapM_mem_of_mem {f : α → Except ε β} {items : List α} {results : List β}
    (mapped : items.mapM f = .ok results) {item : α} (member : item ∈ items) :
    ∃ result ∈ results, f item = .ok result := by
  induction items generalizing results with
  | nil => simp at member
  | cons first rest ih =>
      obtain ⟨value, values, here, later, rfl⟩ := mapM_cons_eq_ok.mp mapped
      rcases List.mem_cons.mp member with rfl | tail
      · exact ⟨value, List.mem_cons_self, here⟩
      · obtain ⟨result, inside, found⟩ := ih later tail
        exact ⟨result, List.mem_cons_of_mem _ inside, found⟩

theorem toOption_eq_some {result : Except ε α} {value : α} :
    result.toOption = some value ↔ result = .ok value := by
  cases result <;> simp [Except.toOption]

theorem option_mapM_length {f : α → Option β} {items : List α} {results : List β}
    (mapped : items.mapM f = some results) : results.length = items.length := by
  induction items generalizing results with
  | nil => simp_all
  | cons first rest ih =>
      simp only [List.mapM_cons, Option.bind_eq_bind, Option.bind_eq_some_iff] at mapped
      obtain ⟨value, _, values, later, made⟩ := mapped
      cases made
      simp [ih later]

/-- A fold succeeds if each of its steps does. -/
theorem foldlM_ok {f : β → α → Except ε β} {items : List α}
    (steps : ∀ item ∈ items, ∀ state, ∃ next, f state item = .ok next) (state : β) :
    ∃ last, items.foldlM f state = .ok last := by
  induction items generalizing state with
  | nil => exact ⟨state, rfl⟩
  | cons first rest ih =>
      obtain ⟨next, here⟩ := steps first List.mem_cons_self state
      obtain ⟨last, later⟩ := ih (fun item member => steps item (List.mem_cons_of_mem _ member)) next
      exact ⟨last, by rw [List.foldlM_cons, here]; exact later⟩

/-- What every step of a fold keeps, the fold keeps. -/
theorem foldlM_keeps {f : β → α → Except ε β} (good : β → Prop)
    (steps : ∀ state item next, good state → f state item = .ok next → good next) {items : List α}
    {first last : β} (holds : good first) (folded : items.foldlM f first = .ok last) :
    good last := by
  induction items generalizing first with
  | nil => exact pure_eq_ok.mp folded ▸ holds
  | cons item rest ih =>
      obtain ⟨next, here, later⟩ := bind_eq_ok.mp folded
      exact ih (steps first item next holds here) later

/-- What the step for an item establishes and every other step keeps, the fold establishes. -/
theorem foldlM_establishes {f : β → α → Except ε β} (good : β → Prop) {items : List α} {item : α}
    (member : item ∈ items) (established : ∀ state next, f state item = .ok next → good next)
    (kept : ∀ state other next, good state → f state other = .ok next → good next)
    {first last : β} (folded : items.foldlM f first = .ok last) : good last := by
  induction items generalizing first with
  | nil => cases member
  | cons head rest ih =>
      obtain ⟨next, here, later⟩ := bind_eq_ok.mp folded
      rcases List.mem_cons.mp member with rfl | among
      · exact foldlM_keeps good kept (established first next here) later
      · exact ih among later

/-- A fold that fails fails in one of its steps. -/
theorem foldlM_error {f : β → α → Except ε β} {items : List α} {first : β} {cause : ε}
    (failed : items.foldlM f first = .error cause) : ∃ state item, f state item = .error cause := by
  induction items generalizing first with
  | nil => cases failed
  | cons item rest ih =>
      cases here : f first item with
      | error other =>
          rw [List.foldlM_cons, here] at failed
          exact ⟨first, item, here.trans failed⟩
      | ok next =>
          rw [List.foldlM_cons, here] at failed
          exact ih failed

/-- What a table gives for a key is one of its entries. -/
theorem lookup_mem [BEq α] [LawfulBEq α] {entries : List (α × β)} {key : α} {value : β}
    (found : entries.lookup key = some value) : (key, value) ∈ entries := by
  obtain ⟨before, after, rfl, _⟩ := List.lookup_eq_some_iff.mp found
  exact List.mem_append_right before List.mem_cons_self

end StackCoroutine.Outcome
