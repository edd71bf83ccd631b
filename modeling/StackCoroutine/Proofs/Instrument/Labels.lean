import StackCoroutine.Proofs.Point.Numbers

/-!
Labels in generated code. What makes the code takes labels from the supply and defines each of them in
that code; all other labels that the code uses were set aside for a point, whose code defines them.
-/

namespace StackCoroutine

open MethodPlan

/-- What is related to a list item by item has something for each item. -/
theorem forall₂_exists {α β : Type} {related : α → β → Prop} {first : List α} {second : List β}
    (pairs : List.Forall₂ related first second) {item : α} (member : item ∈ first) :
    ∃ other ∈ second, related item other := by
  induction pairs with
  | nil => cases member
  | cons here _ ih =>
      rcases List.mem_cons.mp member with rfl | later
      · exact ⟨_, List.mem_cons_self, here⟩
      · obtain ⟨other, there, pair⟩ := ih later
        exact ⟨other, List.mem_cons_of_mem _ there, pair⟩

namespace MethodPlan

variable {plan : MethodPlan} {point : Point} {supply : LabelSupply}

/-- The code of a point uses labels of the point and those taken for it, and defines all of these. -/
structure PointCode.Closed (code : PointCode) (point : Point) (taken : List Label) : Prop where
  uses : usedLabels code.save ++ usedLabels code.restore ⊆ point.labels ++ taken
  defines : ∀ label ∈ point.labels ++ taken, .label label ∈ code.save ∨ .label label ∈ code.restore

namespace Parts

variable {parts : Parts} {entry : Nat × PointCode} {insn : Insn} {label : Label}

/-- Everything that is generated for a method, but for the code of its monitor instructions. -/
def generated (parts : Parts) : Code :=
  parts.opening ++ parts.codes.flatMap fun entry => entry.2.save

/-- The label is one of those given, and generated code defines it. -/
def Settles (parts : Parts) (given : List Label) (label : Label) : Prop :=
  label ∈ given ∧ .label label ∈ parts.generated

end Parts

end MethodPlan

/-! ### Fresh labels -/

namespace LabelSupply

/-- As long as label numbers do not overflow, no label above those of a method is one of them. -/
theorem above_fresh {code : Code} {blocks : List TryBlock} {count : Nat}
    (room : ∀ used ∈ usedLabels code ++ blocks.flatMap TryBlock.labels,
      used.number.toNat + count + 1 < 2 ^ 32) {label : Label}
    (used : label ∈ usedLabels code ++ blocks.flatMap TryBlock.labels) :
    label ∉ (above code blocks).handOut count := by
  let numbers := (usedLabels code ++ blocks.flatMap TryBlock.labels).map fun label =>
    label.number.toNat
  have listed : label.number.toNat ∈ numbers := List.mem_map_of_mem used
  have below := (SlotLayout.le_foldl_max numbers 0).2 _ listed
  -- What holds of all the numbers holds of the greatest.
  have small : numbers.foldl max 0 + count + 1 < 2 ^ 32 := by
    apply List.foldlRecOn (motive := fun most => most + count + 1 < 2 ^ 32)
    · have bound := room label used
      omega
    · intro most before number member
      obtain ⟨other, there, rfl⟩ := List.mem_map.mp member
      have bound := room other there
      omega
  have most : ∀ labels : List Label,
      (labels.foldl (fun (most : UInt32) (label : Label) => max most label.number) 0).toNat =
        (labels.map fun label => label.number.toNat).foldl max 0 := by
    intro labels
    rw [List.foldl_map]
    exact (List.foldl_hom UInt32.toNat fun _ _ => (UInt32.toNat_max _ _).symm).symm
  have first : (above code blocks).number = numbers.foldl max 0 + 1 := by
    obtain ⟨head, rest, some_used⟩ := List.exists_cons_of_ne_nil (List.ne_nil_of_mem used)
    unfold above
    rw [← usedLabels, some_used]
    show (_ + 1 : UInt32).toNat = _
    rw [← some_used, UInt32.toNat_add, most]
    exact Nat.mod_eq_of_lt (show numbers.foldl max 0 + 1 < 2 ^ 32 by omega)
  obtain ⟨between, _⟩ := @handOut_between (above code blocks) count (by omega)
  intro handed
  have later := (between.inside label handed).1
  omega

end LabelSupply

end StackCoroutine
