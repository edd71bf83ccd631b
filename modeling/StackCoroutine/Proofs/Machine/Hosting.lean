import StackCoroutine.Proofs.Machine.HeapFacts
import StackCoroutine.Proofs.Machine.Rules

/-!
The classes that the machine provides, in a table that leaves them as they are: a call of one of their
methods is a call of the machine's own, and their instances start without fields.
-/

namespace StackCoroutine

/-- Entries of other keys do not count for a key. -/
theorem lookup_without {α : Type} {entries : List (String × α)} {key name : String}
    (different : key ≠ name) :
    (entries.filter fun entry => entry.1 != name).lookup key = entries.lookup key := by
  induction entries with
  | nil => rfl
  | cons entry rest ih =>
      by_cases removed : entry.1 = name
      · have passed : (key == entry.1) = false := by simpa [removed] using different
        rw [List.filter_cons_of_neg (by simpa using removed), List.lookup_cons, passed]
        exact ih
      · rw [List.filter_cons_of_pos (by simpa using removed), List.lookup_cons, List.lookup_cons,
          ih]

namespace ClassTable

/-- No loaded class takes the place of one that the machine provides. -/
def Hosts (classes : ClassTable) : Prop :=
  ∀ name, hostHierarchy.contains name = true →
    classes.find? name = none ∧ classes.hierarchy.find? name = hostHierarchy.find? name

namespace Hosts

variable {classes : ClassTable}

theorem empty : ClassTable.empty.Hosts := fun _ _ => ⟨rfl, rfl⟩

theorem insert (hosts : classes.Hosts) {loaded : LoadedClass}
    (other : hostHierarchy.contains loaded.file.name = false) : (classes.insert loaded).Hosts := by
  intro name provided
  obtain ⟨unshadowed, declared⟩ := hosts name provided
  have different : name ≠ loaded.file.name := by
    rintro rfl
    simp [provided] at other
  refine ⟨?_, declared⟩
  have apart : (name == loaded.file.name) = false := by simpa using different
  unfold find? ClassTable.insert
  rw [List.lookup_cons, apart, lookup_without different]
  exact unshadowed

theorem loadInTurn {files : List ClassFile} (hosts : classes.Hosts)
    (others : ∀ file ∈ files, hostHierarchy.contains file.name = false) :
    (classes.loadInTurn files).2.Hosts := by
  induction files generalizing classes with
  | nil => exact hosts
  | cons file rest ih =>
      unfold ClassTable.loadInTurn
      cases prepared : prepareClass classes.hierarchy file with
      | error cause => exact hosts
      | ok loaded =>
          have same : loaded.file = file := by
            simp only [prepareClass, Outcome.bind_eq_ok, Outcome.pure_eq_ok] at prepared
            obtain ⟨_, _, _, _, rfl⟩ := prepared
            rfl
          apply ih
          · exact hosts.insert (same ▸ others file List.mem_cons_self)
          · exact fun other member => others other (List.mem_cons_of_mem _ member)

theorem addClasses {hierarchy : Hierarchy} {files : List ClassFile} {name : String}
    (others : ∀ file ∈ files, file.name ≠ name) :
    (hierarchy.addClasses files).find? name = hierarchy.find? name := by
  induction files generalizing hierarchy with
  | nil => rfl
  | cons file rest ih =>
      have later : ((hierarchy.addClass file).addClasses rest).find? name =
          (hierarchy.addClass file).find? name :=
        ih fun other member => others other (List.mem_cons_of_mem _ member)
      refine Eq.trans later ?_
      have different := Ne.symm (others file List.mem_cons_self)
      have apart : (name == file.name) = false := by simpa using different
      unfold Hierarchy.find? Hierarchy.addClass Hierarchy.add
      rw [List.lookup_cons, apart, lookup_without different]

/-- Classes with other names can be loaded. -/
theorem loadAll {files : List ClassFile} (hosts : classes.Hosts)
    (others : ∀ file ∈ files, hostHierarchy.contains file.name = false) :
    (classes.loadAll files).2.Hosts := by
  apply loadInTurn _ others
  intro name provided
  obtain ⟨unshadowed, declared⟩ := hosts name provided
  refine ⟨unshadowed, ?_⟩
  have apart : ∀ file ∈ files, file.name ≠ name := by
    rintro file member rfl
    simp [others file member] at provided
  exact (addClasses apart).trans declared

theorem ancestry_cons (table : ClassTable) (name : String) :
    ∃ rest, table.ancestry name = name :: rest := by
  unfold ancestry Hierarchy.height ancestryWithin
  exact ⟨_, rfl⟩

theorem resolve? (hosts : classes.Hosts) {method : MethodRef} {native : Native}
    (provided : hostHierarchy.contains method.owner = true)
    (found : Native.find? method = some native) :
    classes.resolve? method.owner method.name method.descriptor = some (.native native) := by
  obtain ⟨rest, split⟩ := ancestry_cons classes method.owner
  have unshadowed := (hosts _ provided).1
  unfold ClassTable.resolve?
  rw [split, List.findSome?_cons, unshadowed]
  simp [show Native.find? ⟨method.owner, method.name, method.descriptor⟩ = some native from found]

theorem isKnown (hosts : classes.Hosts) {name : String}
    (provided : hostHierarchy.contains name = true) : classes.isKnown name = true := by
  unfold ClassTable.isKnown Hierarchy.contains
  rw [(hosts name provided).2]
  exact provided

/-- All superclasses of a provided class are provided. -/
theorem ancestryWithin_unshadowed (hosts : classes.Hosts) {steps : Nat} {name : String}
    (provided : hostHierarchy.contains name = true) :
    ∀ ancestor ∈ classes.ancestryWithin steps name, classes.find? ancestor = none := by
  have closed : ∀ entry ∈ hostHierarchy.entries, ∀ parent, entry.2.superName = some parent →
      hostHierarchy.contains parent = true := by decide +kernel
  induction steps generalizing name with
  | zero =>
      intro ancestor member
      rw [List.mem_singleton.mp member]
      exact (hosts name provided).1
  | succ steps ih =>
      intro ancestor member
      rw [ancestryWithin] at member
      rcases List.mem_cons.mp member with rfl | above
      · exact (hosts _ provided).1
      · split at above
        · rename_i parent found
          unfold Hierarchy.superClass? at found
          rw [(hosts name provided).2] at found
          obtain ⟨info, declared, super⟩ := Option.bind_eq_some_iff.mp found
          exact ih (closed (name, info) (Outcome.lookup_mem declared) parent super) ancestor above
        · cases above

theorem initialFields (hosts : classes.Hosts) {name : String}
    (provided : hostHierarchy.contains name = true) :
    Execution.initialFields classes name = .ok [] := by
  unfold Execution.initialFields
  dsimp only
  rw [List.flatMap_eq_nil_iff.mpr]
  · rfl
  · intro ancestor member
    rw [ancestryWithin_unshadowed hosts provided ancestor member]

end Hosts

end ClassTable

end StackCoroutine
