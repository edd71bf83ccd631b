import Mathlib.Data.List.Infix
import StackCoroutine.Proofs.Machine.Verified
import StackCoroutine.Proofs.Point.Numbers
import StackCoroutine.Proofs.Point.Pushing

/-!
Where generated code pushes saved frames. Every point of an instrumented class has code of its own that
hands over a saved frame, and the class has that code when it is loaded.
-/

namespace StackCoroutine

namespace MethodPlan

variable {plan : MethodPlan} {point : Point}

/-- The code that saves a frame hands it over. -/
theorem pushSavedFrame_saved (plan : MethodPlan) (point : Point) (supply : LabelSupply) :
    plan.pushSavedFrame point <:+: ((plan.pointCode point).run supply).1.save := by
  have before : ∀ {piece code more : Code}, piece <:+: code → piece <:+: code ++ more :=
    fun within => within.trans (List.prefix_append _ _).isInfix
  by_cases suspend : point.kind = .suspend
  · rw [pointCode_suspend plan suspend]
    show _ <:+: _ ++ plan.pushSavedFrame point ++ plan.setMode .saving ++ _ ++ _ ++ _
    exact before (before (before (before (List.suffix_append _ _).isInfix)))
  · rw [pointCode_invoke plan suspend]
    show _ <:+: _ ++ plan.pushSavedFrame point ++ _ ++ plan.rethrow point ++ _
    exact before (before (before (List.suffix_append _ _).isInfix))

/-- Every point has that code in the code of the instrumented method. -/
theorem pushSavedFrame_assembled {body : Code} {monitorUses : List MonitorUse}
    (counted : Detection.Counted body.length ⟨plan.points, monitorUses⟩)
    (member : point ∈ plan.points) (supply : LabelSupply) :
    plan.pushSavedFrame point <:+: ((plan.assemble body).run supply).1 := by
  let middle := (plan.dispatcher.run supply).2
  let codes := ((plan.pointCodes plan.points).run middle).1
  obtain ⟨taken, listed⟩ := mem_pointCodes member middle
  have distinct : (codes.map Prod.fst).Nodup := by
    rw [show codes.map Prod.fst = plan.points.map Point.index from pointCodes_index _ _]
    exact counted.ordered.imp fun less => Nat.ne_of_lt less
  have inside : point.index < body.length := counted.searched point member
  -- The code of the point stands for the instruction that is its call.
  have replaced : plan.replacement codes point.index body[point.index] =
      ((plan.pointCode point).run taken).1.save := by
    unfold replacement
    rw [lookup_of_mem distinct listed]
  have whole : ((plan.assemble body).run supply).1 =
      (plan.parts.run supply).1.opening ++ plan.splice codes body := rfl
  rw [whole, splice_split (List.getElem?_eq_getElem inside), replaced, ← List.append_assoc]
  exact (pushSavedFrame_saved plan point taken).trans (List.infix_append' _ _ _)

end MethodPlan

/-- A method with a piece of code has it from some index on. -/
theorem PreparedMethod.has_contained {owner : String} {method : Method} {prepared : PreparedMethod}
    (made : prepare owner method = .ok prepared) {piece : Code} (within : piece <:+: method.code) :
    ∃ start, prepared.Has start piece := by
  obtain ⟨front, back, whole⟩ := within
  have same := (prepare_ranges made).1
  refine ⟨front.length, has_of_begins ?_⟩
  rw [same, ← whole, List.append_assoc, List.drop_left]
  exact List.prefix_append _ _

namespace ClassTable

/-- Every class of the table is there as it was prepared. -/
theorem Accepted.prepared {table : ClassTable} (accepted : table.Accepted) :
    ∀ entry ∈ table.loaded, ∃ hierarchy file, prepareClass hierarchy file = .ok entry.2 := by
  have inTurn : ∀ {files : List ClassFile} {table : ClassTable},
      (∀ entry ∈ table.loaded, ∃ hierarchy file, prepareClass hierarchy file = .ok entry.2) →
      ∀ entry ∈ (table.loadInTurn files).2.loaded,
        ∃ hierarchy file, prepareClass hierarchy file = .ok entry.2 := by
    intro files
    induction files with
    | nil => exact fun known => known
    | cons file rest ih =>
        intro table known
        unfold loadInTurn
        split
        · exact known
        · rename_i loaded made
          refine ih fun entry member => ?_
          rcases List.mem_cons.mp member with rfl | before
          · exact ⟨_, _, made⟩
          · exact known entry (List.mem_filter.mp before).1
  induction accepted with
  | empty => exact nofun
  | load files _ ih => exact inTurn (fun entry member => ih entry member)

/-- What is found of a class that has been loaded alone is the class itself. -/
theorem file_of_loadAll {table : ClassTable} {file : ClassFile} {loaded : LoadedClass}
    (new : table.find? file.name = none)
    (found : (table.loadAll [file]).2.find? file.name = some loaded) : loaded.file = file := by
  unfold loadAll loadInTurn at found
  split at found
  · cases found.symm.trans new
  · rename_i prepared made
    simp only [prepareClass, Outcome.bind_eq_ok, Outcome.pure_eq_ok] at made
    obtain ⟨_, _, methods, _, rfl⟩ := made
    rw [loadInTurn, find?, insert, List.lookup_cons, beq_self_eq_true] at found
    cases found
    rfl

/-- A loaded class has all its methods with a body ready to run. -/
theorem Accepted.ready {table : ClassTable} (accepted : table.Accepted) {name : String}
    {loaded : LoadedClass} (found : table.find? name = some loaded) {method : Method}
    (member : method ∈ loaded.file.methods) (concrete : method.isAbstract = false) :
    ∃ prepared ∈ loaded.methods,
      PreparedMethod.prepare loaded.file.name method = .ok prepared := by
  obtain ⟨entry, listed, rfl⟩ := find?_mem found
  obtain ⟨hierarchy, file, made⟩ := accepted.prepared entry listed
  simp only [prepareClass, Outcome.bind_eq_ok, Outcome.pure_eq_ok] at made
  obtain ⟨_, _, methods, mapped, same⟩ := made
  rw [← same] at member ⊢
  obtain ⟨prepared, ready, done⟩ := Outcome.mapM_mem_of_mem mapped
    (List.mem_filter.mpr ⟨member, by simp [concrete]⟩)
  exact ⟨prepared, ready, done⟩

end ClassTable

/-- A class loaded as it was instrumented has, for every point, a method with the code that hands over
a saved frame. -/
theorem ClassFile.HasPlan.has {classes : ClassTable} (accepted : classes.Accepted) {file : ClassFile}
    {hierarchy : Hierarchy} {settings : InstrumentSettings} {loaded : LoadedClass}
    {report : ClassReport} {plan : MethodPlan} (plans : file.HasPlan hierarchy settings plan)
    (absent : file.findField? Protocol.markerField = none)
    (found : classes.find? file.name = some loaded)
    (done : file.instrument hierarchy settings = .ok (loaded.file, report)) {point : Point}
    (member : point ∈ plan.points) :
    ∃ prepared ∈ loaded.methods, ∃ start, prepared.Has start (plan.pushSavedFrame point) := by
  obtain ⟨_, body, supply, counted, _, _, finished, inside, concrete, code⟩ :=
    plans.covered absent done
  obtain ⟨prepared, listed, made⟩ := accepted.ready found inside concrete
  have within := MethodPlan.pushSavedFrame_assembled counted member supply
  rw [← code] at within
  exact ⟨prepared, listed, PreparedMethod.has_contained made within⟩

end StackCoroutine
