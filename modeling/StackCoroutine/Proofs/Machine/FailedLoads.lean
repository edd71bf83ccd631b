import StackCoroutine.Proofs.Machine.Hosting
import StackCoroutine.Proofs.Machine.Verified

/-!
Loads that fail. A load fails only for a class that is refused; heap, static fields, monitors and
output are then as before. But the classes before the refused one stay, without their static fields,
and the names of the whole batch are known from then on.
-/

namespace StackCoroutine

theorem Hierarchy.contains_addClass (hierarchy : Hierarchy) (file : ClassFile) (name : String) :
    (hierarchy.addClass file).contains name = true ↔
      hierarchy.contains name = true ∨ name = file.name := by
  unfold contains find? addClass add
  rw [List.lookup_cons]
  by_cases same : name = file.name
  · simp [same]
  · have other : (name == file.name) = false := by simpa using same
    rw [other, lookup_without same]
    simp [same]

theorem Hierarchy.contains_addClasses (hierarchy : Hierarchy) (files : List ClassFile)
    (name : String) : (hierarchy.addClasses files).contains name = true ↔
      hierarchy.contains name = true ∨ name ∈ files.map ClassFile.name := by
  induction files generalizing hierarchy with
  | nil => simp [addClasses]
  | cons file rest ih =>
      show ((hierarchy.addClass file).addClasses rest).contains name = true ↔ _
      rw [ih, contains_addClass, List.map_cons, List.mem_cons, or_assoc]

namespace ClassTable

/-- All names of a batch are known before the first of its classes is looked at. -/
def announce (table : ClassTable) (files : List ClassFile) : ClassTable :=
  { table with hierarchy := table.hierarchy.addClasses files }

theorem foldl_insert_hierarchy (table : ClassTable) (loaded : List LoadedClass) :
    (loaded.foldl insert table).hierarchy = table.hierarchy := by
  induction loaded generalizing table with
  | nil => rfl
  | cons first rest ih => exact ih (table.insert first)

theorem loadAll_eq (table : ClassTable) (files : List ClassFile) :
    table.loadAll files = (table.announce files).loadInTurn files := rfl

/-- Either all classes are prepared and inserted, or those before the first that is refused. -/
theorem loadInTurn_cases (table : ClassTable) (files : List ClassFile) :
    (∃ loaded, files.mapM (prepareClass table.hierarchy) = .ok loaded ∧
      table.loadInTurn files = (.ok loaded, loaded.foldl insert table)) ∨
    ∃ accepted refused rest loaded cause, files = accepted ++ refused :: rest ∧
      accepted.mapM (prepareClass table.hierarchy) = .ok loaded ∧
      prepareClass table.hierarchy refused = .error cause ∧
      table.loadInTurn files = (.error cause, loaded.foldl insert table) := by
  induction files generalizing table with
  | nil => exact .inl ⟨[], rfl, rfl⟩
  | cons file rest ih =>
      unfold loadInTurn
      cases prepared : prepareClass table.hierarchy file with
      | error cause => exact .inr ⟨[], file, rest, [], cause, rfl, rfl, prepared, rfl⟩
      | ok first =>
          rcases ih (table.insert first) with
            ⟨loaded, all, done⟩ | ⟨accepted, refused, others, loaded, cause, rfl, all, failed, done⟩
          · refine .inl ⟨first :: loaded, ?_, by simp only [done]; rfl⟩
            exact Outcome.mapM_cons_eq_ok.mpr ⟨first, loaded, prepared, all, rfl⟩
          · refine .inr ⟨file :: accepted, refused, others, first :: loaded, cause, rfl, ?_, failed,
              by simp only [done]; rfl⟩
            exact Outcome.mapM_cons_eq_ok.mpr ⟨first, loaded, prepared, all, rfl⟩

end ClassTable

namespace Vm

theorem initialValue_ok {field : Field} {type : ValueType}
    (parsed : ValueType.parse field.descriptor = .ok type) (heap : Heap) :
    ∃ outcome, initialValue heap field = .ok outcome := by
  unfold initialValue
  rw [parsed]
  rcases field.value with _ | value
  · exact ⟨_, rfl⟩
  · cases value <;> exact ⟨_, rfl⟩

/-- Static fields of classes that have been prepared can be initialised. -/
theorem initStatic_ok {hierarchy : Hierarchy} {files : List ClassFile} {loaded : List LoadedClass}
    (prepared : files.mapM (ClassTable.prepareClass hierarchy) = .ok loaded) (state : MachineState) :
    ∃ last, (staticFields loaded).foldlM
      (fun state (name, field) => initStatic name state field) state = .ok last := by
  refine Outcome.foldlM_ok ?_ state
  rintro ⟨name, field⟩ member state
  obtain ⟨entry, listed, inside⟩ := List.mem_flatMap.mp member
  obtain ⟨_, declared, same⟩ := List.mem_map.mp inside
  cases same
  obtain ⟨_, _, made⟩ := Outcome.mapM_mem prepared listed
  obtain ⟨_, parsed⟩ := (ClassTable.prepareClass_checked made).2 field (List.mem_filter.mp declared).1
  obtain ⟨⟨value, heap⟩, initial⟩ := initialValue_ok parsed state.heap
  exact ⟨_, Outcome.bind_eq_ok.mpr ⟨(value, heap), initial, rfl⟩⟩

variable {vm : Vm} {files : List ClassFile} {cause : MachineError}

/-- A load fails for a class that is refused. The classes before it have been prepared and stay, and
nothing but the classes has changed. -/
theorem loadClasses_refused (failed : (vm.loadClasses files).1 = .error cause) :
    ∃ accepted refused rest loaded, files = accepted ++ refused :: rest ∧
      accepted.mapM (ClassTable.prepareClass (vm.classes.announce files).hierarchy) = .ok loaded ∧
      ClassTable.prepareClass (vm.classes.announce files).hierarchy refused = .error cause ∧
      (vm.loadClasses files).2 =
        { vm with classes := loaded.foldl ClassTable.insert (vm.classes.announce files) } := by
  unfold loadClasses at failed ⊢
  rw [ClassTable.loadAll_eq] at failed ⊢
  rcases (vm.classes.announce files).loadInTurn_cases files with
    ⟨loaded, all, done⟩ | ⟨accepted, refused, rest, loaded, other, split, all, refusal, done⟩
  · obtain ⟨last, initialised⟩ := initStatic_ok all vm.state
    simp only [done, initialised] at failed
    cases failed
  · rw [done] at failed ⊢
    cases failed
    exact ⟨accepted, refused, rest, loaded, split, all, refusal, rfl⟩

/-- After a load that fails, every class of the batch is known, the refused one too. -/
theorem isKnown_of_loadClasses_refused (failed : (vm.loadClasses files).1 = .error cause)
    (name : String) : (vm.loadClasses files).2.classes.isKnown name = true ↔
      vm.classes.isKnown name = true ∨ name ∈ files.map ClassFile.name := by
  obtain ⟨_, _, _, loaded, _, _, _, after⟩ := loadClasses_refused failed
  rw [after]
  unfold ClassTable.isKnown
  rw [ClassTable.foldl_insert_hierarchy]
  exact Hierarchy.contains_addClasses _ _ _

end Vm

end StackCoroutine
