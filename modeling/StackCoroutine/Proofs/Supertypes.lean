import Mathlib.Data.Finset.Card
import StackCoroutine.Proofs.Assignability

/-!
Assignability as an order. In an acyclic hierarchy with the root at its top, what a reference can stand
for is passed on from type to type; and the class that two references are merged to takes both of
them.
-/

namespace StackCoroutine.Hierarchy

variable {hierarchy : Hierarchy}

/-- The root is below nothing, and no supertype has the name of an array. -/
structure Rooted (hierarchy : Hierarchy) : Prop where
  root : hierarchy.parents Names.object = []
  plain : ∀ name parent, hierarchy.Parent name parent → ¬ Bracketed parent

theorem parent_entry {name parent : String} (above : hierarchy.Parent name parent) :
    ∃ entry ∈ hierarchy.entries, entry.1 = name ∧
      parent ∈ entry.2.interfaces ++ entry.2.superName.toList := by
  unfold Parent parents superClass? interfaces find? at above
  cases found : hierarchy.entries.lookup name with
  | none => simp [found] at above
  | some info =>
      obtain ⟨before, after, listed, _⟩ := List.lookup_eq_some_iff.mp found
      refine ⟨(name, info), by simp [listed], rfl, ?_⟩
      simpa [found] using above

/-- A hierarchy is acyclic if its classes can be ranked such that supertypes rank lower. -/
theorem acyclic_of_ranked (rank : String → Nat)
    (lower : ∀ entry ∈ hierarchy.entries,
      ∀ parent ∈ entry.2.interfaces ++ entry.2.superName.toList, rank parent < rank entry.1) :
    hierarchy.Acyclic := by
  have falls : ∀ {low high : String}, Relation.TransGen hierarchy.Parent low high →
      rank high < rank low := by
    intro low high path
    have step : ∀ {name parent : String}, hierarchy.Parent name parent → rank parent < rank name := by
      intro name parent above
      obtain ⟨entry, member, rfl, listed⟩ := parent_entry above
      exact lower entry member parent listed
    induction path with
    | single above => exact step above
    | tail _ above ih => exact (step above).trans ih
  exact fun name cycle => Nat.lt_irrefl _ (falls cycle)

theorem Rooted.ofEntries (root : hierarchy.parents Names.object = [])
    (plain : ∀ entry ∈ hierarchy.entries,
      ∀ parent ∈ entry.2.interfaces ++ entry.2.superName.toList, ¬ Bracketed parent) :
    hierarchy.Rooted where
  root := root
  plain := by
    intro name parent above
    obtain ⟨entry, member, _, listed⟩ := parent_entry above
    exact plain entry member parent listed

/-- Later classes of the machine are below earlier ones. -/
theorem builtins_acyclic : builtins.Acyclic :=
  acyclic_of_ranked (fun name => (builtins.entries.map Prod.fst).reverse.idxOf name)
    (by decide +kernel)

theorem builtins_rooted : builtins.Rooted :=
  .ofEntries (by decide +kernel) (by unfold Bracketed; decide +kernel)

theorem reaches_mono {target source : String} {few many : Nat} (enough : few ≤ many)
    (reached : hierarchy.reaches target few source = true) :
    hierarchy.reaches target many source = true := by
  induction few generalizing many source with
  | zero =>
      have same : source = target := by simpa [reaches] using reached
      rw [same]
      exact reaches_self target many
  | succ few ih =>
      obtain ⟨many, rfl⟩ : ∃ rest, many = rest + 1 := ⟨many - 1, by omega⟩
      simp only [reaches, Bool.or_eq_true, beq_iff_eq, List.any_eq_true] at reached
      rcases reached with rfl | ⟨parent, above, later⟩
      · exact reaches_self _ _
      · exact reaches_parent above (ih (by omega) later)

open Classical in
/-- The known classes at or above a name. -/
noncomputable def classesAbove (hierarchy : Hierarchy) (name : String) : Finset String :=
  (hierarchy.entries.map Prod.fst).toFinset.filter fun other =>
    Relation.ReflTransGen hierarchy.Parent name other

open Classical in
theorem mem_classesAbove {name other : String} : other ∈ hierarchy.classesAbove name ↔
    other ∈ hierarchy.entries.map Prod.fst ∧ Relation.ReflTransGen hierarchy.Parent name other := by
  rw [classesAbove, Finset.mem_filter, List.mem_toFinset]

open Classical in
theorem card_classesAbove_le (name : String) :
    (hierarchy.classesAbove name).card ≤ hierarchy.entries.length :=
  (Finset.card_filter_le _ _).trans
    (by simpa using List.toFinset_card_le (hierarchy.entries.map Prod.fst))

/-- A class counts itself, and what is above it does not count it. -/
theorem card_classesAbove_lt (acyclic : hierarchy.Acyclic) {name parent : String}
    (above : hierarchy.Parent name parent) :
    (hierarchy.classesAbove parent).card < (hierarchy.classesAbove name).card := by
  apply Finset.card_lt_card
  rw [Finset.ssubset_iff_of_subset]
  · obtain ⟨entry, member, rfl, _⟩ := parent_entry above
    refine ⟨entry.1, mem_classesAbove.mpr ⟨List.mem_map_of_mem member, .refl⟩, fun back => ?_⟩
    exact acyclic _ (.head' above (mem_classesAbove.mp back).2)
  · intro other member
    rw [mem_classesAbove] at member ⊢
    exact ⟨member.1, member.2.head above⟩

/-- The search goes as high as there are classes, and no path upward is longer. -/
theorem reaches_of_path (acyclic : hierarchy.Acyclic) {source target : String}
    (path : Relation.ReflTransGen hierarchy.Parent source target) :
    hierarchy.reaches target hierarchy.height source = true := by
  have found : hierarchy.reaches target (hierarchy.classesAbove source).card source = true := by
    induction path using Relation.ReflTransGen.head_induction_on with
    | refl => exact reaches_self _ _
    | head step _ ih => exact reaches_mono (card_classesAbove_lt acyclic step) (reaches_parent step ih)
  exact reaches_mono ((card_classesAbove_le source).trans (Nat.le_succ _)) found

/-- Only the root takes the root. -/
theorem eq_of_isAssignable_object (rooted : hierarchy.Rooted) {target : String}
    (takes : hierarchy.isAssignable target Names.object = true) : target = Names.object := by
  have plain : ¬ Bracketed Names.object := by unfold Bracketed; decide +kernel
  rcases (isAssignable_class plain).mp takes with same | same | reached
  · exact same
  · exact same
  · rcases (reaches_path reached).cases_head with same | ⟨parent, above, _⟩
    · exact same.symm
    · unfold Parent at above
      rw [rooted.root] at above
      cases above

theorem isAssignable_trans (acyclic : hierarchy.Acyclic) (rooted : hierarchy.Rooted)
    {high middle low : String} (upper : hierarchy.isAssignable high middle = true)
    (lower : hierarchy.isAssignable middle low = true) :
    hierarchy.isAssignable high low = true := by
  -- On the length of the lowest name: elements of arrays have shorter names than the arrays.
  induction length : low.length using Nat.strongRecOn generalizing high middle low with
  | _ _ ih =>
      by_cases root : high = Names.object
      · exact root ▸ isAssignable_object low
      by_cases first : high = middle
      · exact first ▸ lower
      by_cases second : middle = low
      · exact second ▸ upper
      have inner : middle ≠ Names.object := by
        rintro rfl
        exact root (eq_of_isAssignable_object rooted upper)
      by_cases bracketed : Bracketed low
      · obtain ⟨wanted, given, denotes, denotes', fits⟩ :=
          (isAssignable_array bracketed second inner).mp lower
        obtain ⟨highest, wanted', denotes'', again, fits'⟩ :=
          (isAssignable_array (bracketed_of_array denotes) first root).mp upper
        cases denotes.symm.trans again
        by_cases same : high = low
        · exact same ▸ isAssignable_refl high
        refine (isAssignable_array bracketed same root).mpr
          ⟨highest, given, denotes'', denotes', ?_⟩
        -- Elements that are no references have to be the same throughout.
        by_cases references : wanted.isReference ∧ given.isReference
        · rw [if_pos references] at fits
          by_cases references' : highest.isReference ∧ wanted.isReference
          · rw [if_pos references'] at fits'
            rw [if_pos ⟨references'.1, references.2⟩]
            have shorter := ValueType.internalName_shorter denotes' references.2
            exact ih _ (length ▸ shorter) fits' fits rfl
          · rw [if_neg references'] at fits'
            subst fits'
            exact absurd ⟨references.1, references.1⟩ references'
        · rw [if_neg references] at fits
          exact fits ▸ fits'
      · -- A class is taken by what is above it, and nothing above it is an array.
        have step : Relation.TransGen hierarchy.Parent low middle := by
          rcases (isAssignable_class bracketed).mp lower with same | same | reached
          · exact absurd same second
          · exact absurd same inner
          · exact (Relation.reflTransGen_iff_eq_or_transGen.mp (reaches_path reached)).resolve_left
              second
        obtain ⟨_, _, last⟩ := Relation.TransGen.tail'_iff.mp step
        rcases (isAssignable_class (rooted.plain _ _ last)).mp upper with same | same | reached
        · exact absurd same first
        · exact absurd same root
        · exact (isAssignable_class bracketed).mpr (.inr (.inr
            (reaches_of_path acyclic (step.to_reflTransGen.trans (reaches_path reached)))))

/-- A merge takes what its first reference takes. -/
theorem commonSuper_left (acyclic : hierarchy.Acyclic) (a b : String) :
    hierarchy.isAssignable (hierarchy.commonSuper a b) a = true := by
  rcases commonSuper_rises acyclic a b with same | ⟨_, root | ⟨takes, _⟩⟩
  · rw [same, isAssignable_refl]
  · rw [root, isAssignable_object]
  · exact takes

theorem commonSuper_right (hierarchy : Hierarchy) (a b : String) :
    hierarchy.isAssignable (hierarchy.commonSuper a b) b = true := by
  unfold commonSuper
  by_cases takes : hierarchy.isAssignable a b = true
  · rw [if_pos takes]
    exact takes
  rw [if_neg takes]
  split
  · exact isAssignable_refl b
  split
  · exact isAssignable_object b
  rcases firstTaking_found b hierarchy.height (hierarchy.superClass? a) with
    root | ⟨_, _, _, _, found, _⟩
  · rw [root, isAssignable_object]
  · exact found

end StackCoroutine.Hierarchy
