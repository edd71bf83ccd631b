import Mathlib.Logic.Relation
import StackCoroutine.Hierarchy
import StackCoroutine.Proofs.Descriptor

/-!
How references rise when they are merged. The search for assignability does not depend on its bound;
in an acyclic hierarchy a merge leaves a name as it is or takes it to one strictly above, and no
chain of such steps comes back to where it started.
-/

namespace StackCoroutine.Hierarchy

/-- One step upward in the hierarchy. -/
def Parent (hierarchy : Hierarchy) (name parent : String) : Prop := parent ∈ hierarchy.parents name

/-- No class is among its own supertypes. -/
def Acyclic (hierarchy : Hierarchy) : Prop := ∀ name, ¬ Relation.TransGen hierarchy.Parent name name

variable {hierarchy : Hierarchy}

theorem reaches_self (target : String) (steps : Nat) :
    hierarchy.reaches target steps target = true := by
  cases steps <;> simp [reaches]

theorem reaches_parent {target source parent : String} {steps : Nat}
    (above : parent ∈ hierarchy.parents source)
    (reached : hierarchy.reaches target steps parent = true) :
    hierarchy.reaches target (steps + 1) source = true := by
  simp only [reaches, Bool.or_eq_true, List.any_eq_true]
  exact Or.inr ⟨parent, above, reached⟩

theorem reaches_path {target source : String} {steps : Nat}
    (reached : hierarchy.reaches target steps source = true) :
    Relation.ReflTransGen hierarchy.Parent source target := by
  induction steps generalizing source with
  | zero =>
      have same : source = target := by simpa [reaches] using reached
      rw [same]
  | succ steps ih =>
      simp only [reaches, Bool.or_eq_true, beq_iff_eq, List.any_eq_true] at reached
      rcases reached with same | ⟨parent, above, later⟩
      · rw [same]
      · exact Relation.ReflTransGen.head above (ih later)

/-- Each step down into an array shortens the name, so any bound above its length will do. -/
theorem isAssignableWithin_bound {depth depth' : Nat} {target source : String}
    (enough : source.length < depth) (enough' : source.length < depth') :
    hierarchy.isAssignableWithin depth target source =
      hierarchy.isAssignableWithin depth' target source := by
  induction depth generalizing depth' target source with
  | zero => omega
  | succ depth ih =>
      cases depth' with
      | zero => omega
      | succ depth' =>
          simp only [isAssignableWithin]
          split
          · rfl
          split
          · split
            · rename_i wanted given _ denotes
              split
              · rename_i references
                have shorter := ValueType.internalName_shorter denotes references.2
                exact ih (by omega) (by omega)
              · rfl
            · rfl
          · rfl

theorem isAssignable_refl (name : String) : hierarchy.isAssignable name name = true := by
  simp [isAssignable, isAssignableWithin]

theorem isAssignable_object (name : String) :
    hierarchy.isAssignable Names.object name = true := by
  simp [isAssignable, isAssignableWithin]

theorem isAssignable_class {target source : String} (plain : ¬ Bracketed source) :
    hierarchy.isAssignable target source = true ↔ target = source ∨ target = Names.object ∨
      hierarchy.reaches target hierarchy.height source = true := by
  have plain' : source.startsWith "[" = false := by simpa [Bracketed] using plain
  by_cases top : target = source ∨ target = Names.object
  · simp only [isAssignable, isAssignableWithin, if_pos top, true_iff]
    rcases top with same | root
    · exact Or.inl same
    · exact Or.inr (Or.inl root)
  · simp only [isAssignable, isAssignableWithin, if_neg top, plain']
    grind

theorem isAssignable_array {target source : String} (bracketed : Bracketed source)
    (different : target ≠ source) (below : target ≠ Names.object) :
    hierarchy.isAssignable target source = true ↔ ∃ wanted given,
      ValueType.ofInternalName target = .ok (.array wanted) ∧
      ValueType.ofInternalName source = .ok (.array given) ∧
      if wanted.isReference ∧ given.isReference then
        hierarchy.isAssignable wanted.internalName given.internalName = true
      else wanted = given := by
  have bracketed' : source.startsWith "[" = true := bracketed
  rw [isAssignable, isAssignableWithin, if_neg (by simp [different, below]), if_pos bracketed']
  split
  · rename_i wanted given first second
    simp only [first, second, Except.ok.injEq, ValueType.array.injEq, exists_eq_left',
      exists_and_left]
    split
    · rename_i references
      have shorter := ValueType.internalName_shorter second references.2
      rw [isAssignableWithin_bound shorter (Nat.lt_succ_self _)]
      rfl
    · exact decide_eq_true_iff
  · rename_i other
    refine iff_of_false Bool.false_ne_true ?_
    rintro ⟨wanted, given, first, second, _⟩
    exact other wanted given first second

/-- A merge can take the first name to the second, which is strictly above it. -/
def Rises (hierarchy : Hierarchy) (low high : String) : Prop :=
  low ≠ Names.object ∧ (high = Names.object ∨
    hierarchy.isAssignable high low = true ∧ hierarchy.isAssignable low high = false)

theorem bracketed_of_array {name : String} {element : ValueType}
    (denotes : ValueType.ofInternalName name = .ok (.array element)) : Bracketed name :=
  bracketed_iff.mpr ⟨_, ValueType.ofInternalName_array denotes⟩

/-- Both names are those of arrays of references, and the elements are so related. -/
def Elementwise (related : String → String → Prop) (first second : String) : Prop :=
  ∃ low high, ValueType.ofInternalName first = .ok (.array low) ∧
    ValueType.ofInternalName second = .ok (.array high) ∧
    low.isReference = true ∧ high.isReference = true ∧ related low.internalName high.internalName

/-- An array rises to the root or to an array whose element is above its own. -/
theorem Rises.ofArray {low high : String} (rises : hierarchy.Rises low high)
    (bracketed : Bracketed low) :
    high = Names.object ∨ Elementwise hierarchy.Rises low high := by
  obtain ⟨proper, root | ⟨upward, strict⟩⟩ := rises
  · exact Or.inl root
  by_cases root : high = Names.object
  · exact Or.inl root
  have different : high ≠ low := by
    rintro rfl
    simp [isAssignable_refl] at strict
  obtain ⟨wanted, given, denotes, denotes', fits⟩ :=
    (isAssignable_array bracketed different root).mp upward
  have strict' : ¬ hierarchy.isAssignable low high = true := by simp [strict]
  have backward :=
    mt (isAssignable_array (bracketed_of_array denotes) different.symm proper).mpr strict'
  by_cases references : wanted.isReference ∧ given.isReference
  · rw [if_pos references] at fits
    have strictBelow : hierarchy.isAssignable given.internalName wanted.internalName = false := by
      rw [← Bool.not_eq_true]
      intro back
      exact backward ⟨given, wanted, denotes', denotes, by rwa [if_pos references.symm]⟩
    refine Or.inr ⟨given, wanted, denotes', denotes, references.2, references.1, ?_,
      Or.inr ⟨fits, strictBelow⟩⟩
    intro top
    rw [top, isAssignable_object] at strictBelow
    simp at strictBelow
  · rw [if_neg references] at fits
    refine absurd ⟨given, wanted, denotes', denotes, ?_⟩ backward
    rw [if_neg (fun both => references both.symm)]
    exact fits.symm

/-- A class rises to the root or along its supertypes. -/
theorem Rises.ofClass {low high : String} (rises : hierarchy.Rises low high)
    (plain : ¬ Bracketed low) :
    high = Names.object ∨ Relation.TransGen hierarchy.Parent low high := by
  obtain ⟨_, root | ⟨upward, strict⟩⟩ := rises
  · exact Or.inl root
  rcases (isAssignable_class plain).mp upward with same | root | reached
  · rw [same, isAssignable_refl] at strict
    simp at strict
  · exact Or.inl root
  · rcases (Relation.reflTransGen_iff_eq_or_transGen.mp (reaches_path reached)) with same | path
    · rw [same, isAssignable_refl] at strict
      simp at strict
    · exact Or.inr path

/-- Chains that start at an array stay with arrays until they end at the root. -/
theorem chain_ofArray {low high : String} (chain : Relation.TransGen hierarchy.Rises low high)
    (bracketed : Bracketed low) :
    high = Names.object ∨ Elementwise (Relation.TransGen hierarchy.Rises) low high := by
  induction chain with
  | single rises =>
      rcases rises.ofArray bracketed with root | ⟨x, y, first, second, hx, hy, rises⟩
      · exact Or.inl root
      · exact Or.inr ⟨x, y, first, second, hx, hy, .single rises⟩
  | tail _ rises ih =>
      rcases ih with root | ⟨x, y, first, second, hx, _, chain⟩
      · exact absurd root rises.1
      rcases rises.ofArray (bracketed_of_array second) with root | ⟨y', z, again, third, _, hz, last⟩
      · exact Or.inl root
      · rw [second] at again
        cases again
        exact Or.inr ⟨x, z, first, third, hx, hz, chain.tail last⟩

/-- Chains that start at a class follow its supertypes until they come to an array or the root. -/
theorem chain_ofClass {low high : String} (chain : Relation.TransGen hierarchy.Rises low high)
    (plain : ¬ Bracketed low) :
    high = Names.object ∨ Bracketed high ∨ Relation.TransGen hierarchy.Parent low high := by
  induction chain with
  | single rises => exact (rises.ofClass plain).imp_right Or.inr
  | @tail middle high _ rises ih =>
      by_cases bracketed : Bracketed middle
      · rcases rises.ofArray bracketed with root | ⟨_, _, _, second, _⟩
        · exact Or.inl root
        · exact Or.inr (Or.inl (bracketed_of_array second))
      · rcases ih with root | array | path
        · exact absurd root rises.1
        · exact absurd array bracketed
        · exact (rises.ofClass bracketed).imp_right fun later => Or.inr (path.trans later)

theorem chain_proper {low high : String} (chain : Relation.TransGen hierarchy.Rises low high) :
    low ≠ Names.object := by
  obtain ⟨_, rises, _⟩ := Relation.TransGen.head'_iff.mp chain
  exact rises.1

/-- No chain of merges comes back to a name it has left. -/
theorem rises_acyclic (acyclic : hierarchy.Acyclic) (name : String) :
    ¬ Relation.TransGen hierarchy.Rises name name := by
  induction length : name.length using Nat.strongRecOn generalizing name with
  | _ _ ih =>
      intro cycle
      have proper := chain_proper cycle
      by_cases bracketed : Bracketed name
      · rcases chain_ofArray cycle bracketed with root | ⟨x, y, first, second, reference, _, inner⟩
        · exact proper root
        · rw [first] at second
          cases second
          have shorter := ValueType.internalName_shorter first reference
          exact ih _ (length ▸ shorter) x.internalName rfl inner
      · rcases chain_ofClass cycle bracketed with root | array | path
        · exact proper root
        · exact bracketed array
        · exact acyclic name path

/-- Every superclass tried is one of the hierarchy. -/
def IsSuper (hierarchy : Hierarchy) (name : String) : Prop :=
  ∃ source, hierarchy.superClass? source = some name

theorem firstTaking_found (source : String) (steps : Nat) (start : Option String) :
    hierarchy.firstTaking source steps start = Names.object ∨ ∃ name bound,
      start = some name ∧ steps = bound + 1 ∧
      hierarchy.isAssignable (hierarchy.firstTaking source steps start) source = true ∧
      hierarchy.reaches (hierarchy.firstTaking source steps start) bound name = true ∧
      (hierarchy.firstTaking source steps start = name ∨
        hierarchy.IsSuper (hierarchy.firstTaking source steps start)) := by
  induction steps generalizing start with
  | zero => exact Or.inl (by simp [firstTaking])
  | succ steps ih =>
      cases start with
      | none => exact Or.inl (by simp [firstTaking])
      | some name =>
          by_cases takes : hierarchy.isAssignable name source = true
          · have here : hierarchy.firstTaking source (steps + 1) (some name) = name := by
              simp [firstTaking, takes]
            rw [here]
            exact Or.inr ⟨name, steps, rfl, rfl, takes, reaches_self name steps, Or.inl rfl⟩
          · have later : hierarchy.firstTaking source (steps + 1) (some name) =
                hierarchy.firstTaking source steps (hierarchy.superClass? name) := by
              simp [firstTaking, takes]
            rw [later]
            rcases ih (hierarchy.superClass? name) with root |
              ⟨parent, bound, above, rfl, found, reached, known⟩
            · exact Or.inl root
            · have listed : parent ∈ hierarchy.parents name := by simp [parents, above]
              refine Or.inr ⟨name, bound + 1, rfl, rfl, found, reaches_parent listed reached, ?_⟩
              rcases known with same | known
              · exact Or.inr ⟨name, by rw [same, above]⟩
              · exact Or.inr known

/-- The first name stays or rises. -/
theorem commonSuper_rises (acyclic : hierarchy.Acyclic) (a b : String) :
    hierarchy.commonSuper a b = a ∨ hierarchy.Rises a (hierarchy.commonSuper a b) := by
  unfold commonSuper
  by_cases takes : hierarchy.isAssignable a b = true
  · simp [takes]
  have proper : a ≠ Names.object := by
    rintro rfl
    exact takes (isAssignable_object b)
  by_cases taken : hierarchy.isAssignable b a = true
  · simp only [takes, taken, if_true]
    exact Or.inr ⟨proper, Or.inr ⟨taken, by simpa using takes⟩⟩
  simp only [takes, taken, Bool.false_eq_true, if_false]
  split
  · exact Or.inr ⟨proper, Or.inl rfl⟩
  rename_i classes
  have plain : ¬ Bracketed a := by
    intro bracketed
    have bracketed' : a.startsWith "[" = true := bracketed
    simp [bracketed'] at classes
  rcases firstTaking_found b hierarchy.height (hierarchy.superClass? a) with root | ⟨parent, bound, above, steps, found, reached, _⟩
  · rw [root]
    exact Or.inr ⟨proper, Or.inl rfl⟩
  generalize hierarchy.firstTaking b hierarchy.height (hierarchy.superClass? a) = name at *
  have listed : parent ∈ hierarchy.parents a := by simp [parents, above]
  have upward : hierarchy.reaches name hierarchy.height a = true := by
    rw [steps]
    exact reaches_parent listed reached
  have path : Relation.TransGen hierarchy.Parent a name :=
    Relation.TransGen.head' listed (reaches_path reached)
  refine Or.inr ⟨proper, Or.inr ⟨(isAssignable_class plain).mpr (Or.inr (Or.inr upward)), ?_⟩⟩
  rw [← Bool.not_eq_true]
  intro back
  by_cases bracketed : Bracketed name
  · have different : a ≠ name := by
      rintro rfl
      exact takes found
    obtain ⟨_, _, denotes, _⟩ := (isAssignable_array bracketed different proper).mp back
    exact plain (bracketed_of_array denotes)
  · rcases (isAssignable_class bracketed).mp back with same | root | reached
    · exact takes (same ▸ found)
    · exact proper root
    · exact acyclic a (path.trans_left (reaches_path reached))

/-- A merge invents no names. -/
theorem commonSuper_known (hierarchy : Hierarchy) (a b : String) :
    hierarchy.commonSuper a b = a ∨ hierarchy.commonSuper a b = b ∨
      hierarchy.commonSuper a b = Names.object ∨ hierarchy.IsSuper (hierarchy.commonSuper a b) := by
  unfold commonSuper
  split
  · exact Or.inl rfl
  split
  · exact Or.inr (Or.inl rfl)
  split
  · exact Or.inr (Or.inr (Or.inl rfl))
  · rcases firstTaking_found b hierarchy.height (hierarchy.superClass? a) with root | ⟨parent, _, above, _, _, _, same | known⟩
    · exact Or.inr (Or.inr (Or.inl root))
    · exact Or.inr (Or.inr (Or.inr ⟨a, by rw [same, above]⟩))
    · exact Or.inr (Or.inr (Or.inr known))

end StackCoroutine.Hierarchy
