import StackCoroutine.Proofs.Descriptor.Grammar
import StackCoroutine.Proofs.Searches

/-!
Assignability as a partial order, and merges as least upper bounds among classes. In a lawful hierarchy
a class is reached from below only along superclasses, since interfaces lead to interfaces and to the
root. So the first superclass that takes the other reference is the least class that takes both, and it
does not matter from which of the two the walk starts.
-/

namespace StackCoroutine

namespace ValueType

/-- No class in the type has the name of an array. -/
def PlainNamed : ValueType → Prop
  | .object name => ¬ Bracketed name
  | .array element => element.PlainNamed
  | _ => True

end ValueType

namespace Hierarchy

/-- The name denotes a class, or an array in which no class has the name of an array. -/
def Unambiguous (name : String) : Prop :=
  ∀ type, ValueType.ofInternalName name = .ok type → type.PlainNamed

/-- The superclass of a class. -/
def Superclass (hierarchy : Hierarchy) (name parent : String) : Prop :=
  hierarchy.superClass? name = some parent

/-- Acyclic, with the root at the top; superclasses are classes and interfaces are interfaces, all of
them known, and no class has the name of an array. -/
structure Lawful (hierarchy : Hierarchy) : Prop where
  acyclic : hierarchy.Acyclic
  root : hierarchy.parents Names.object = []
  known : ∀ name parent, hierarchy.Parent name parent → hierarchy.contains parent = true
  superclass : ∀ name parent, hierarchy.Superclass name parent →
    hierarchy.isInterface parent = false
  interfaces : ∀ name, ∀ parent ∈ hierarchy.interfaces name, hierarchy.isInterface parent = true
  /-- An interface is below the root at most, other interfaces apart. -/
  topmost : ∀ name parent, hierarchy.isInterface name = true → hierarchy.Superclass name parent →
    parent = Names.object
  plain : ∀ name, hierarchy.contains name = true → ¬ Bracketed name

variable {hierarchy : Hierarchy}

theorem parent_iff {name parent : String} : hierarchy.Parent name parent ↔
    hierarchy.Superclass name parent ∨ parent ∈ hierarchy.interfaces name := by
  unfold Parent parents Superclass
  rw [List.mem_append, Option.mem_toList, or_comm]

theorem superclasses_path {low high : String}
    (path : Relation.ReflTransGen hierarchy.Superclass low high) :
    Relation.ReflTransGen hierarchy.Parent low high :=
  path.lift id fun _ _ up => parent_iff.mpr (.inl up)

theorem takes_path {low high : String} (takes : hierarchy.isAssignable high low = true)
    (plain : ¬ Bracketed low) :
    high = Names.object ∨ Relation.ReflTransGen hierarchy.Parent low high := by
  rcases (isAssignable_class plain).mp takes with rfl | root | reached
  · exact .inr .refl
  · exact .inl root
  · exact .inr (reaches_path reached)

theorem object_plain : ¬ Bracketed Names.object := by
  unfold Bracketed
  decide +kernel

namespace Lawful

variable (lawful : hierarchy.Lawful)
include lawful

theorem rooted : hierarchy.Rooted where
  root := lawful.root
  plain name parent above := lawful.plain parent (lawful.known name parent above)

/-- Nothing is above the root. -/
theorem eq_root {high : String}
    (path : Relation.ReflTransGen hierarchy.Parent Names.object high) : high = Names.object := by
  rcases path.cases_head with same | ⟨parent, above, _⟩
  · exact same.symm
  · unfold Parent at above
    rw [lawful.root] at above
    cases above

/-- A class that is above something is the root or above it along superclasses. -/
theorem path_class {low high : String} (path : Relation.ReflTransGen hierarchy.Parent low high)
    (proper : hierarchy.isInterface high = false) :
    high = Names.object ∨ Relation.ReflTransGen hierarchy.Superclass low high := by
  induction path using Relation.ReflTransGen.head_induction_on with
  | refl => exact .inr .refl
  | head step _ ih =>
      rcases ih with root | later
      · exact .inl root
      rcases parent_iff.mp step with up | interface
      · exact .inr (.head up later)
      · -- An interface is no class, and above it there is only the root.
        have between := lawful.interfaces _ _ interface
        rcases later.cases_head with rfl | ⟨parent, up, rest⟩
        · rw [between] at proper
          cases proper
        · obtain rfl := lawful.topmost _ _ between up
          exact .inl (lawful.eq_root (superclasses_path rest))

theorem path_takes {low high : String} (path : Relation.ReflTransGen hierarchy.Parent low high)
    (plain : ¬ Bracketed low) : hierarchy.isAssignable high low = true :=
  (isAssignable_class plain).mpr (.inr (.inr (reaches_of_path lawful.acyclic path)))

/-- Of the classes only the root takes arrays and interfaces. -/
theorem eq_root_of_takes {low high : String} (outside : Bracketed low ∨ hierarchy.isInterface low = true)
    (takes : hierarchy.isAssignable high low = true) (plain : ¬ Bracketed high)
    (proper : hierarchy.isInterface high = false) : high = Names.object := by
  by_contra below
  by_cases bracketed : Bracketed low
  · have different : high ≠ low := fun same => plain (same ▸ bracketed)
    obtain ⟨_, _, denotes, _⟩ := (isAssignable_array bracketed different below).mp takes
    exact plain (bracketed_of_array denotes)
  · have between := outside.resolve_left bracketed
    have path := (takes_path takes bracketed).resolve_left below
    rcases ((lawful.path_class path proper).resolve_left below).cases_head with
      rfl | ⟨parent, up, rest⟩
    · rw [between] at proper
      cases proper
    · obtain rfl := lawful.topmost _ _ between up
      exact below (lawful.eq_root (superclasses_path rest))

theorem assigns_eq {target source : String} {answer : Bool}
    (tested : Assigns hierarchy target source answer) :
    hierarchy.isAssignable target source = answer :=
  (Assigns.isAssignable lawful.acyclic target source).unique tested

/-- A walk upward ends at the first class that takes the source, so every other superclass that takes
it comes later. -/
theorem walk_first {source last : String} {start : Option String}
    (walked : Walks hierarchy source start last) :
    (last = Names.object ∨ ∃ name, start = some name ∧
      Relation.ReflTransGen hierarchy.Superclass name last) ∧
    ∀ name high, start = some name → Relation.ReflTransGen hierarchy.Superclass name high →
      hierarchy.isAssignable high source = true →
      Relation.ReflTransGen hierarchy.Superclass last high := by
  induction walked with
  | ended => exact ⟨.inl rfl, fun _ _ none => by cases none⟩
  | taken =>
      refine ⟨.inr ⟨_, rfl, .refl⟩, ?_⟩
      rintro name high ⟨⟩ path _
      exact path
  | @passed name last refuses _ ih =>
      obtain ⟨found, first⟩ := ih
      constructor
      · rcases found with root | ⟨parent, up, path⟩
        · exact .inl root
        · exact .inr ⟨name, rfl, .head up path⟩
      · rintro _ high ⟨⟩ path takes
        rcases path.cases_head with rfl | ⟨parent, up, later⟩
        · rw [lawful.assigns_eq refuses] at takes
          cases takes
        · exact first parent high up later takes

theorem superclass_plain {low high : String} (up : hierarchy.Superclass low high) :
    ¬ Bracketed high :=
  lawful.plain _ (lawful.known _ _ (parent_iff.mpr (.inl up)))

/-- No class that takes both references is below the one they are merged to. -/
theorem commonSuper_least {a b high : String} (known : hierarchy.contains high = true)
    (proper : hierarchy.isInterface high = false)
    (first : hierarchy.isAssignable high a = true) (second : hierarchy.isAssignable high b = true) :
    hierarchy.isAssignable high (hierarchy.commonSuper a b) = true := by
  by_cases root : high = Names.object
  · exact root ▸ isAssignable_object _
  have plain := lawful.plain high known
  have joined := Joins.commonSuper lawful.acyclic a b
  generalize hierarchy.commonSuper a b = merged at joined ⊢
  cases joined with
  | first => exact first
  | second => exact second
  | root _ _ outside =>
      simp only [Bool.or_eq_true] at outside
      rcases outside with ((array | array) | interface) | interface
      · exact absurd (lawful.eq_root_of_takes (.inl array) first plain proper) root
      · exact absurd (lawful.eq_root_of_takes (.inl array) second plain proper) root
      · exact absurd (lawful.eq_root_of_takes (.inr interface) first plain proper) root
      · exact absurd (lawful.eq_root_of_takes (.inr interface) second plain proper) root
  | above refuses _ inside walked =>
      have plainLow : ¬ Bracketed a := by
        intro bracketed
        have starts : a.startsWith "[" = true := bracketed
        simp [starts] at inside
      have path := (takes_path first plainLow).resolve_left root
      rcases ((lawful.path_class path proper).resolve_left root).cases_head with
        rfl | ⟨parent, up, rest⟩
      · rw [lawful.assigns_eq refuses] at second
        cases second
      · obtain ⟨found, least⟩ := lawful.walk_first walked
        refine lawful.path_takes (superclasses_path (least parent high up rest second)) ?_
        rcases found with rfl | ⟨name, above, between⟩
        · exact object_plain
        · rcases between.cases_tail with rfl | ⟨_, _, last⟩
          · exact lawful.superclass_plain above
          · exact lawful.superclass_plain last

/-- References of which neither takes the other are merged to the root or to a superclass. -/
theorem commonSuper_class {a b : String} (first : hierarchy.isAssignable a b = false)
    (second : hierarchy.isAssignable b a = false) :
    hierarchy.commonSuper a b = Names.object ∨
      hierarchy.contains (hierarchy.commonSuper a b) = true ∧
        hierarchy.isInterface (hierarchy.commonSuper a b) = false := by
  have left := commonSuper_left lawful.acyclic a b
  have right := commonSuper_right hierarchy a b
  rcases commonSuper_known hierarchy a b with same | same | root | ⟨name, up⟩
  · rw [same, first] at right
    cases right
  · rw [same, second] at left
    cases left
  · exact .inl root
  · exact .inr ⟨lawful.known _ _ (parent_iff.mpr (.inl up)), lawful.superclass _ _ up⟩

end Lawful

theorem unambiguous_of_plain {name : String} (plain : ¬ Bracketed name) : Unambiguous name := by
  intro type denotes
  cases (ValueType.ofInternalName_class plain).symm.trans denotes
  exact plain

/-- The name of an array tells its element type, which is unambiguous as well. -/
theorem Unambiguous.element {name : String} {element : ValueType} (unambiguous : Unambiguous name)
    (denotes : ValueType.ofInternalName name = .ok (.array element))
    (reference : element.isReference = true) :
    ValueType.ofInternalName element.internalName = .ok element ∧
      Unambiguous element.internalName := by
  have parsed : ValueType.parse name = .ok (.array element) := by
    rw [← denotes]
    exact (if_pos (bracketed_of_array denotes)).symm
  have plain : (ValueType.array element).PlainNamed := unambiguous _ denotes
  have again : ValueType.ofInternalName element.internalName = .ok element := by
    refine ValueType.ofInternalName_internalName reference
      (ValueType.parse_eq_ok.mp parsed).1.2 ?_
    rintro class_ rfl
    exact plain
  refine ⟨again, fun type found => ?_⟩
  cases again.symm.trans found
  exact plain

/-- Names that take each other are the same. -/
theorem Lawful.isAssignable_antisymm (lawful : hierarchy.Lawful) {a b : String}
    (first : Unambiguous a) (second : Unambiguous b)
    (takes : hierarchy.isAssignable a b = true) (taken : hierarchy.isAssignable b a = true) :
    a = b := by
  -- On the length of a name: elements of arrays have shorter names than the arrays.
  induction length : a.length using Nat.strongRecOn generalizing a b with
  | _ _ ih =>
      by_cases topA : a = Names.object
      · rw [topA] at taken ⊢
        exact (eq_of_isAssignable_object lawful.rooted taken).symm
      by_cases topB : b = Names.object
      · rw [topB] at takes ⊢
        exact eq_of_isAssignable_object lawful.rooted takes
      by_cases same : a = b
      · exact same
      exfalso
      by_cases bracketed : Bracketed b
      · obtain ⟨wanted, given, denotes, denotes', fits⟩ :=
          (isAssignable_array bracketed same topA).mp takes
        obtain ⟨given', wanted', again', again, back⟩ :=
          (isAssignable_array (bracketed_of_array denotes) (Ne.symm same) topB).mp taken
        cases denotes.symm.trans again
        cases denotes'.symm.trans again'
        have different : wanted ≠ given := by
          rintro rfl
          apply same
          apply String.toList_inj.mp
          rw [ValueType.ofInternalName_array denotes, ValueType.ofInternalName_array denotes']
        by_cases references : wanted.isReference = true ∧ given.isReference = true
        · rw [if_pos references] at fits
          rw [if_pos references.symm] at back
          obtain ⟨named, inner⟩ := first.element denotes references.1
          obtain ⟨named', inner'⟩ := second.element denotes' references.2
          have shorter := ValueType.internalName_shorter denotes references.1
          have equal := ih _ (length ▸ shorter) inner inner' fits back rfl
          rw [equal] at named
          cases named.symm.trans named'
          exact different rfl
        · rw [if_neg references] at fits
          exact different fits
      · have up := (takes_path takes bracketed).resolve_left topA
        by_cases bracketed' : Bracketed a
        · obtain ⟨_, _, denotes, _⟩ :=
            (isAssignable_array bracketed' (Ne.symm same) topB).mp taken
          exact bracketed (bracketed_of_array denotes)
        · have down := (takes_path taken bracketed').resolve_left topB
          rcases Relation.reflTransGen_iff_eq_or_transGen.mp up with equal | path
          · exact same equal
          · exact lawful.acyclic b (path.trans_left down)

/-- It does not matter which reference is merged with which. -/
theorem Lawful.commonSuper_comm (lawful : hierarchy.Lawful) {a b : String}
    (first : Unambiguous a) (second : Unambiguous b) :
    hierarchy.commonSuper a b = hierarchy.commonSuper b a := by
  cases takes : hierarchy.isAssignable a b with
  | true =>
      cases taken : hierarchy.isAssignable b a with
      | true => rw [lawful.isAssignable_antisymm first second takes taken]
      | false => simp [commonSuper, takes, taken]
  | false =>
      cases taken : hierarchy.isAssignable b a with
      | true => simp [commonSuper, takes, taken]
      | false =>
          -- Each merge is a class that takes both references, so that neither is below the other.
          have below : ∀ {a b : String}, hierarchy.isAssignable a b = false →
              hierarchy.isAssignable b a = false →
              hierarchy.isAssignable (hierarchy.commonSuper a b) (hierarchy.commonSuper b a) = true ∧
                Unambiguous (hierarchy.commonSuper a b) := by
            intro a b refuses refuses'
            rcases lawful.commonSuper_class refuses refuses' with root | ⟨known, proper⟩
            · rw [root]
              exact ⟨isAssignable_object _, unambiguous_of_plain object_plain⟩
            · exact ⟨lawful.commonSuper_least known proper (commonSuper_right hierarchy a b)
                (commonSuper_left lawful.acyclic a b), unambiguous_of_plain (lawful.plain _ known)⟩
          obtain ⟨forth, one⟩ := below takes taken
          obtain ⟨back, other⟩ := below taken takes
          exact lawful.isAssignable_antisymm one other forth back

/-- In a lawful hierarchy assignability is a partial order with the root at its top, and the class two
references are merged to takes both of them, is the same whichever comes first, and is below every
known class that takes both. -/
theorem assignability_ordered (lawful : hierarchy.Lawful) :
    (∀ name, hierarchy.isAssignable name name = true) ∧
      (∀ high middle low, hierarchy.isAssignable high middle = true →
        hierarchy.isAssignable middle low = true → hierarchy.isAssignable high low = true) ∧
      (∀ a b, Unambiguous a → Unambiguous b → hierarchy.isAssignable a b = true →
        hierarchy.isAssignable b a = true → a = b) ∧
      (∀ name, hierarchy.isAssignable Names.object name = true) ∧
      ∀ a b, hierarchy.isAssignable (hierarchy.commonSuper a b) a = true ∧
        hierarchy.isAssignable (hierarchy.commonSuper a b) b = true ∧
        (Unambiguous a → Unambiguous b →
          hierarchy.commonSuper a b = hierarchy.commonSuper b a) ∧
        ∀ high, hierarchy.contains high = true → hierarchy.isInterface high = false →
          hierarchy.isAssignable high a = true → hierarchy.isAssignable high b = true →
          hierarchy.isAssignable high (hierarchy.commonSuper a b) = true := by
  refine ⟨isAssignable_refl, fun _ _ _ => isAssignable_trans lawful.acyclic lawful.rooted,
    fun _ _ => lawful.isAssignable_antisymm, isAssignable_object, fun a b => ?_⟩
  exact ⟨commonSuper_left lawful.acyclic a b, commonSuper_right hierarchy a b,
    lawful.commonSuper_comm, fun _ => lawful.commonSuper_least⟩

/-- The laws as far as they are about one class. -/
def LawfulEntry (hierarchy : Hierarchy) (name : String) (info : ClassInfo) : Prop :=
  ¬ Bracketed name ∧
    (∀ parent ∈ info.superName.toList, hierarchy.contains parent = true ∧
      hierarchy.isInterface parent = false ∧ (info.isInterface = true → parent = Names.object)) ∧
    ∀ parent ∈ info.interfaces, hierarchy.contains parent = true ∧
      hierarchy.isInterface parent = true

/-- A hierarchy is lawful if each of its entries is. -/
theorem Lawful.ofEntries (acyclic : hierarchy.Acyclic) (root : hierarchy.parents Names.object = [])
    (each : ∀ entry ∈ hierarchy.entries, hierarchy.LawfulEntry entry.1 entry.2) :
    hierarchy.Lawful := by
  have entry : ∀ {name info}, hierarchy.find? name = some info → hierarchy.LawfulEntry name info := by
    intro name info found
    obtain ⟨_, _, listed, _⟩ := List.lookup_eq_some_iff.mp found
    exact each (name, info) (by simp [listed])
  have superclass : ∀ {name parent}, hierarchy.Superclass name parent →
      ∃ info, hierarchy.find? name = some info ∧ parent ∈ info.superName.toList := by
    intro name parent up
    obtain ⟨info, found, named⟩ := Option.bind_eq_some_iff.mp up
    exact ⟨info, found, by simp [named]⟩
  have interface : ∀ {name parent}, parent ∈ hierarchy.interfaces name →
      ∃ info, hierarchy.find? name = some info ∧ parent ∈ info.interfaces := by
    intro name parent listed
    unfold Hierarchy.interfaces at listed
    split at listed
    · exact ⟨_, by assumption, listed⟩
    · cases listed
  constructor
  · exact acyclic
  · exact root
  · intro name parent above
    rcases parent_iff.mp above with up | listed
    · obtain ⟨info, found, member⟩ := superclass up
      exact ((entry found).2.1 parent member).1
    · obtain ⟨info, found, member⟩ := interface listed
      exact ((entry found).2.2 parent member).1
  · intro name parent up
    obtain ⟨info, found, member⟩ := superclass up
    exact ((entry found).2.1 parent member).2.1
  · intro name parent listed
    obtain ⟨info, found, member⟩ := interface listed
    exact ((entry found).2.2 parent member).2
  · intro name parent between up
    obtain ⟨info, found, member⟩ := superclass up
    refine ((entry found).2.1 parent member).2.2 ?_
    simpa [isInterface, found] using between
  · intro name known
    obtain ⟨info, found⟩ := Option.isSome_iff_exists.mp known
    exact (entry found).1

/-- Two interfaces, the second below the first, and three classes, one of which implements it. -/
def animals : Hierarchy :=
  [("demo/Shape", none, [], true), ("demo/Drawable", some Names.object, ["demo/Shape"], true),
    ("demo/Animal", some Names.object, [], false),
    ("demo/Dog", some "demo/Animal", ["demo/Drawable"], false),
    ("demo/Cat", some "demo/Animal", ["demo/Shape"], false)].foldl
    (fun hierarchy (name, parent, interfaces, isInterface) =>
      hierarchy.add name ⟨parent, interfaces, isInterface⟩) builtins

theorem animals_lawful : animals.Lawful := by
  refine .ofEntries ?_ (by decide +kernel) ?_
  · exact acyclic_of_ranked (fun name => (animals.entries.map Prod.fst).reverse.idxOf name)
      (by decide +kernel)
  · unfold LawfulEntry Bracketed
    decide +kernel

theorem assignability_ordered_animals :
    animals.Lawful ∧ Unambiguous "demo/Dog" ∧ Unambiguous "demo/Cat" ∧
      animals.commonSuper "demo/Dog" "demo/Cat" = animals.commonSuper "demo/Cat" "demo/Dog" ∧
      animals.isAssignable "demo/Animal" (animals.commonSuper "demo/Dog" "demo/Cat") = true ∧
      animals.isAssignable "[Ldemo/Shape;" "[Ldemo/Dog;" = true := by
  obtain ⟨_, trans, _, _, merged⟩ := assignability_ordered animals_lawful
  obtain ⟨_, _, comm, least⟩ := merged "demo/Dog" "demo/Cat"
  have dog : Unambiguous "demo/Dog" := unambiguous_of_plain (by unfold Bracketed; decide +kernel)
  have cat : Unambiguous "demo/Cat" := unambiguous_of_plain (by unfold Bracketed; decide +kernel)
  refine ⟨animals_lawful, dog, cat, comm dog cat, ?_, ?_⟩
  · exact least "demo/Animal" (by decide +kernel) (by decide +kernel) (by decide +kernel)
      (by decide +kernel)
  · exact trans _ "[Ldemo/Drawable;" _ (by decide +kernel) (by decide +kernel)

end Hierarchy
end StackCoroutine
