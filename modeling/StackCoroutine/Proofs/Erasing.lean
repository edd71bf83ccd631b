import Mathlib.Data.List.Basic
import StackCoroutine.Coroutine.LockState

/-!
Removal of the last element that satisfies a test, by which monitors are given up and struck off lock
states.
-/

namespace StackCoroutine

variable {α : Type} {test : α → Bool} {items left : List α}

theorem eraseLast?_concat {last : α} (found : test last = true) :
    eraseLast? test (items ++ [last]) = some items := by
  induction items with
  | nil => simp [eraseLast?, found]
  | cons item rest ih => simp [eraseLast?, ih]

theorem eraseLast?_subset (erased : eraseLast? test items = some left) : left ⊆ items := by
  induction items generalizing left with
  | nil => cases erased
  | cons item rest ih =>
      unfold eraseLast? at erased
      split at erased
      · rename_i fewer later
        cases erased
        exact List.cons_subset_cons item (ih later)
      · split at erased <;> cases erased
        exact List.subset_cons_self item rest

theorem eraseLast?_eq_none :
    eraseLast? test items = none ↔ ∀ item ∈ items, test item = false := by
  induction items with
  | nil => simp [eraseLast?]
  | cons item rest ih =>
      unfold eraseLast?
      cases erased : eraseLast? test rest with
      | some left =>
          have among : ¬ ∀ other ∈ rest, test other = false := by simp [← ih, erased]
          simp only [reduceCtorEq, List.mem_cons, forall_eq_or_imp, false_iff]
          exact fun all => among all.2
      | none =>
          have others := ih.mp erased
          cases found : test item with
          | true => simp [found]
          | false => simpa [found] using others

/-- One occurrence is taken away. -/
theorem eraseLast?_count [DecidableEq α] {gone : α}
    (erased : eraseLast? (fun item => item == gone) items = some left) (other : α) :
    items.count other = left.count other + if gone = other then 1 else 0 := by
  induction items generalizing left with
  | nil => cases erased
  | cons item rest ih =>
      unfold eraseLast? at erased
      cases later : eraseLast? (fun item => item == gone) rest with
      | some shorter =>
          rw [later] at erased
          cases erased
          rw [List.count_cons, List.count_cons, ih later]
          omega
      | none =>
          rw [later] at erased
          by_cases here : item = gone
          · subst here
            simp only [beq_self_eq_true, if_true, Option.some.injEq] at erased
            rw [← erased, List.count_cons]
            simp
          · simp [here] at erased

end StackCoroutine
