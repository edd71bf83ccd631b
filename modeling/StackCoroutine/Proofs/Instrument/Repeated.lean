import StackCoroutine.Proofs.Frame.ControlFlow
import StackCoroutine.Proofs.Instrument.Planned
import StackCoroutine.Proofs.Point.Fields

/-!
Instrumenting a class once more. Whatever was instrumented stays as it is from then on: it is marked,
or nothing in it takes a context. And instrumenting changes nothing but the code of methods in which
control comes to a continuation point, besides the fields it appends.
-/

namespace StackCoroutine

/-! ### Methods with continuation points -/

/-- Control can come to a continuation point of the method. -/
def Method.HasPoint (hierarchy : Hierarchy) (method : Method) : Prop :=
  ∃ index insn, method.code[index]? = some insn ∧ insn.isContinuation hierarchy = true ∧
    method.Reachable index

namespace Method

variable {hierarchy : Hierarchy} {settings : InstrumentSettings} {owner : String} {method : Method}

theorem plan?_hasPoint {plan : MethodPlan} {supply : LabelSupply}
    (planned : method.plan? hierarchy settings owner = .ok (some (plan, supply))) :
    method.HasPoint hierarchy := by
  obtain ⟨_, _, known, _, _, analyzed, searched, some_point, _⟩ := plan?_some planned
  refine Detection.ofMethod_keeps (fun _ points => points ≠ [] → method.HasPoint hierarchy)
    (fun _ _ has => has) ?_ (absurd rfl) (congrArg Prod.fst searched) some_point
  intro index _ point _ added _
  exact ⟨index, point.call, added.call, added.continuation,
    (Analysis.frame?_iff_reachable analyzed index).mp ⟨point.frame, added.framed⟩⟩

/-- At most the code and what it needs have changed, and if so for a continuation point. -/
def Touched (hierarchy : Hierarchy) (before after : Method) : Prop :=
  after = before ∨ before.isAbstract = false ∧ before.HasPoint hierarchy ∧
    after = { before with
      code := after.code
      tryBlocks := after.tryBlocks
      maxLocals := after.maxLocals
      maxStack := after.maxStack }

theorem instrument_touched {finished : Method} {report : MethodReport}
    (concrete : method.isAbstract = false)
    (done : method.instrument hierarchy settings owner = .ok (some (finished, report))) :
    method.Touched hierarchy finished := by
  obtain ⟨plan, supply, planned, accepted, _⟩ := instrument_eq_ok done
  obtain ⟨_, _, rfl⟩ := MethodPlan.finish_eq_ok accepted
  exact .inr ⟨concrete, plan?_hasPoint planned, rfl⟩

end Method

/-! ### Fields -/

def Field.IsSynthetic (field : Field) : Prop := Access.has field.access Access.isSynthetic = true

/-- The second list goes on with fields of that kind, whose names are all different and new. -/
def Field.Extends (kind : Field → Prop) (fields longer : List Field) : Prop :=
  ∃ added, longer = fields ++ added ∧ (∀ field ∈ added, kind field) ∧
    (added.map Field.name).Nodup ∧ ∀ field ∈ added, field.name ∉ fields.map Field.name

namespace Field.Extends

variable {kind : Field → Prop} {fields longer : List Field}

theorem refl (kind : Field → Prop) (fields : List Field) : Extends kind fields fields :=
  ⟨[], by simp⟩

theorem add (extended : Extends kind fields longer) {field : Field} (proper : kind field)
    (fresh : field.name ∉ longer.map Field.name) : Extends kind fields (longer ++ [field]) := by
  obtain ⟨added, rfl, all, distinct, apart⟩ := extended
  rw [List.map_append, List.mem_append, not_or] at fresh
  refine ⟨added ++ [field], List.append_assoc .., ?_, ?_, ?_⟩
  · exact List.forall_mem_append.mpr ⟨all, List.forall_mem_singleton.mpr proper⟩
  · rw [List.map_append, List.nodup_append]
    exact ⟨distinct, List.nodup_singleton _, fun name member other last same =>
      fresh.2 (List.mem_singleton.mp last ▸ same ▸ member)⟩
  · exact List.forall_mem_append.mpr ⟨apart, List.forall_mem_singleton.mpr fresh.1⟩

theorem imp {weak : Field → Prop} (weaker : ∀ field, kind field → weak field)
    (extended : Extends kind fields longer) : Extends weak fields longer := by
  obtain ⟨added, same, all, rest⟩ := extended
  exact ⟨added, same, fun field member => weaker field (all field member), rest⟩

theorem mem (extended : Extends kind fields longer) {field : Field} (member : field ∈ longer) :
    field ∈ fields ∨ kind field := by
  obtain ⟨added, rfl, all, _⟩ := extended
  exact (List.mem_append.mp member).imp_right (all field)

end Field.Extends

/-- The field tells of a continuation point. -/
def Field.OfPoint (field : Field) : Prop :=
  ∃ methodId point, field =
    ClassFile.syntheticField (SavedFrame.pointFieldName methodId point) "I" (.int point)

namespace ClassFile

theorem syntheticField_isSynthetic (name descriptor : String) (value : Constant) :
    (syntheticField name descriptor value).IsSynthetic :=
  show Access.has (Access.isStatic ||| Access.isFinal ||| Access.isSynthetic) Access.isSynthetic =
    true by decide

theorem addPointFields_extends {fields longer : List Field} (report : MethodReport)
    (extended : Field.Extends Field.OfPoint fields longer) :
    Field.Extends Field.OfPoint fields (addPointFields report longer) := by
  unfold addPointFields
  induction List.range report.pointCount generalizing longer with
  | nil => exact extended
  | cons number rest ih =>
      rw [List.foldl_cons]
      refine ih ?_
      dsimp only
      split
      · exact extended
      · rename_i fresh
        refine extended.add ⟨_, _, rfl⟩ fun member => fresh ?_
        obtain ⟨field, inside, same⟩ := List.mem_map.mp member
        exact List.any_eq_true.mpr ⟨field, inside, beq_iff_eq.mpr same⟩

/-! ### Classes -/

variable {hierarchy : Hierarchy} {settings : InstrumentSettings} {owner : String}

theorem instrumentNext_contextless {method : Method} (contextless : method.Contextless hierarchy)
    (progress : Progress) :
    instrumentNext hierarchy settings owner progress method = .ok (progress.keep method) := by
  unfold instrumentNext
  split
  · rfl
  rename_i concrete
  obtain ⟨type, typed, untaken⟩ := contextless.resolve_left concrete
  rw [typed]
  show (if (contextParameter? hierarchy type).isNone then _ else _) = _
  rw [untaken]
  rfl

theorem foldlM_contextless {methods : List Method}
    (contextless : ∀ method ∈ methods, method.Contextless hierarchy) (progress : Progress) :
    methods.foldlM (instrumentNext hierarchy settings owner) progress =
      .ok { progress with methods := progress.methods ++ methods } := by
  induction methods generalizing progress with
  | nil => simp [pure, Except.pure]
  | cons method rest ih =>
      rw [List.foldlM_cons, instrumentNext_contextless (contextless method List.mem_cons_self)]
      show rest.foldlM _ (progress.keep method) = _
      rw [ih (fun other member => contextless other (List.mem_cons_of_mem _ member))]
      simp [Progress.keep]

/-- Unless a method takes a context, all of them are kept. -/
theorem contextless_of_foldlM {methods : List Method} {progress last : Progress}
    (folded : methods.foldlM (instrumentNext hierarchy settings owner) progress = .ok last)
    (calm : last.suspendable = false) : ∀ method ∈ methods, method.Contextless hierarchy := by
  intro method member
  by_contra takes
  have suspendable : last.suspendable = true := by
    refine Outcome.foldlM_establishes (fun progress => progress.suspendable = true) member ?_ ?_
      folded
    · intro progress next done
      rcases instrumentNext_cases done with ⟨contextless, _⟩ | rfl | ⟨_, _, _, _, rfl⟩
      · exact absurd contextless takes
      · rfl
      · rfl
    · intro progress other next suspendable done
      rcases instrumentNext_cases done with ⟨_, rfl⟩ | rfl | ⟨_, _, _, _, rfl⟩
      · exact suspendable
      · rfl
      · rfl
  exact absurd (suspendable.symm.trans calm) (by decide)

theorem foldlM_touched {methods : List Method} {progress last : Progress}
    (folded : methods.foldlM (instrumentNext hierarchy settings owner) progress = .ok last) :
    ∃ finished, last.methods = progress.methods ++ finished ∧
      List.Forall₂ (Method.Touched hierarchy) methods finished := by
  induction methods generalizing progress with
  | nil =>
      cases Outcome.pure_eq_ok.mp folded
      exact ⟨[], by simp, .nil⟩
  | cons method rest ih =>
      obtain ⟨next, done, later⟩ := Outcome.bind_eq_ok.mp folded
      obtain ⟨others, listed, touched⟩ := ih later
      obtain ⟨first, here, same⟩ : ∃ first, method.Touched hierarchy first ∧
          next.methods = progress.methods ++ [first] := by
        rcases instrumentNext_cases done with
          ⟨_, rfl⟩ | rfl | ⟨finished, _, concrete, rewritten, rfl⟩
        · exact ⟨method, .inl rfl, rfl⟩
        · exact ⟨method, .inl rfl, rfl⟩
        · exact ⟨finished, Method.instrument_touched concrete rewritten, rfl⟩
      exact ⟨first :: others, by rw [listed, same, List.append_assoc]; rfl, .cons here touched⟩

theorem foldlM_extends {fields : List Field} {methods : List Method} {progress last : Progress}
    (extended : Field.Extends Field.OfPoint fields progress.fields)
    (folded : methods.foldlM (instrumentNext hierarchy settings owner) progress = .ok last) :
    Field.Extends Field.OfPoint fields last.fields := by
  refine Outcome.foldlM_keeps (fun progress => Field.Extends Field.OfPoint fields progress.fields)
    ?_ extended folded
  intro progress method next extended done
  rcases instrumentNext_cases done with ⟨_, rfl⟩ | rfl | ⟨_, report, _, _, rfl⟩
  · exact extended
  · exact extended
  · exact addPointFields_extends report extended

/-- The second class is the first, but for code around continuation points that control comes to and
for synthetic fields, which are appended and have new names. -/
structure Enriched (hierarchy : Hierarchy) (before after : ClassFile) : Prop where
  rest : after = { before with fields := after.fields, methods := after.methods }
  fields : Field.Extends Field.IsSynthetic before.fields after.fields
  methods : List.Forall₂ (Method.Touched hierarchy) before.methods after.methods

variable {file output : ClassFile} {report : ClassReport}

theorem Enriched.refl (hierarchy : Hierarchy) (file : ClassFile) : file.Enriched hierarchy file where
  rest := rfl
  fields := .refl _ _
  methods := List.forall₂_same.mpr fun _ _ => .inl rfl

/-- A class with the right marker is left alone, whatever it is instrumented with. -/
theorem instrument_marked {marker : Field}
    (found : file.findField? Protocol.markerField = some marker)
    (tagged : marker.value = some (.text formatTag)) :
    file.instrument hierarchy settings = .ok (file, ⟨file.name, true, []⟩) := by
  unfold instrument
  rw [found]
  exact if_pos tagged

/-- Instrumenting has marked the class, or has found no method in it that takes a context. -/
inductive Settled (hierarchy : Hierarchy) (file output : ClassFile) : Prop where
  | marked {marker : Field} : output.findField? Protocol.markerField = some marker →
      marker.value = some (.text formatTag) → Settled hierarchy file output
  | interface : output = file → file.findField? Protocol.markerField = none →
      file.isInterface = true → Settled hierarchy file output
  | contextless : output = file → file.findField? Protocol.markerField = none →
      file.isInterface = false → (∀ method ∈ file.methods, method.Contextless hierarchy) →
      Settled hierarchy file output

theorem instrument_settled (done : file.instrument hierarchy settings = .ok (output, report)) :
    file.Enriched hierarchy output ∧ Settled hierarchy file output := by
  unfold instrument at done
  split at done
  · rename_i marker found
    split at done
    · rename_i tagged
      cases done
      exact ⟨.refl _ _, .marked found tagged⟩
    · cases done
  rename_i absent
  split at done
  · rename_i interface
    cases done
    exact ⟨.refl _ _, .interface rfl absent interface⟩
  rename_i concrete
  obtain ⟨progress, folded, made⟩ := Outcome.bind_eq_ok.mp done
  obtain ⟨finished, methods, touched⟩ := foldlM_touched folded
  have extended := foldlM_extends (.refl _ file.fields) folded
  have fields : Field.Extends Field.IsSynthetic file.fields progress.fields := by
    refine extended.imp fun field ofPoint => ?_
    obtain ⟨_, _, rfl⟩ := ofPoint
    exact syntheticField_isSynthetic _ _ _
  -- So the marker, if it is appended, is the first field of its name.
  have unmarked : ∀ field ∈ progress.fields, field.name ≠ Protocol.markerField := by
    intro field member
    rcases extended.mem member with own | ⟨methodId, point, rfl⟩
    · simpa using List.find?_eq_none.mp absent field own
    · exact SavedFrame.pointFieldName_ne_marker methodId point
  rw [List.nil_append] at methods
  cases made
  cases suspendable : progress.suspendable with
  | true =>
      have found : (progress.fields ++ [markerField]).find?
          (fun field => field.name == Protocol.markerField) = some markerField := by
        rw [List.find?_append, List.find?_eq_none.mpr (by simpa using unmarked)]
        rfl
      refine ⟨⟨rfl, ?_, methods ▸ touched⟩, .marked found rfl⟩
      refine fields.add (syntheticField_isSynthetic _ _ _) fun member => ?_
      obtain ⟨field, inside, same⟩ := List.mem_map.mp member
      exact unmarked field inside same
  | false =>
      have contextless := contextless_of_foldlM folded suspendable
      rw [foldlM_contextless contextless] at folded
      cases folded
      exact ⟨.refl _ _, .contextless rfl absent (Bool.eq_false_iff.mpr concrete) contextless⟩

/-- Instrumenting a class that has been instrumented changes nothing: not with other settings, and if
the class was changed, not for another hierarchy either. And it changes nothing but what it is for. -/
theorem instrument_again (done : file.instrument hierarchy settings = .ok (output, report)) :
    (∀ others : InstrumentSettings, ∃ again,
      output.instrument hierarchy others = .ok (output, again)) ∧
    (output ≠ file → ∀ (other : Hierarchy) (others : InstrumentSettings),
      output.instrument other others = .ok (output, ⟨output.name, true, []⟩)) ∧
    file.Enriched hierarchy output := by
  obtain ⟨enriched, settled⟩ := instrument_settled done
  refine ⟨?_, ?_, enriched⟩
  · intro others
    cases settled with
    | marked found tagged => exact ⟨_, instrument_marked found tagged⟩
    | interface same absent interface =>
        subst same
        unfold instrument
        rw [absent]
        exact ⟨_, if_pos interface⟩
    | contextless same absent concrete contextless =>
        subst same
        unfold instrument instrumentMethods
        rw [absent, foldlM_contextless contextless]
        simp only [concrete]
        exact ⟨_, rfl⟩
  · intro changed other others
    cases settled with
    | marked found tagged => exact instrument_marked found tagged
    | interface same => exact absurd same changed
    | contextless same => exact absurd same changed

/-- A class with a method that suspends, one that takes no context and one without a body. -/
def pausing : ClassFile :=
  { ClassFile.empty "demo/Pausing" with
    fields := [⟨Access.isStatic, "count", "I", some (.int 3)⟩]
    methods := [
      ⟨Access.isStatic, "pause", "(Lresumable/SuspendableContext;)V", 1, 1,
        [.load .ref 0, .invoke .virtual Protocol.suspend, .return none], []⟩,
      ⟨Access.isStatic, "twice", "(I)I", 2, 1,
        [.load .int 0, .load .int 0, .binary .int .add, .return (some .int)], []⟩,
      ⟨Access.isAbstract, "later", "(Lresumable/SuspendableContext;)V", 0, 0, [], []⟩] }

theorem instrument_again_pausing : ∃ output report,
    pausing.instrument ClassTable.hostHierarchy .standard = .ok (output, report) ∧
    output ≠ pausing ∧ output.fields.length = 3 ∧
    output.instrument Hierarchy.builtins .standard = .ok (output, ⟨output.name, true, []⟩) ∧
    pausing.Enriched ClassTable.hostHierarchy output := by
  have checks : ((pausing.instrument ClassTable.hostHierarchy .standard).toOption.any
      fun done => done.1.fields.length = 3) = true := by
    decide +kernel
  simp only [Option.any_eq_true, decide_eq_true_eq] at checks
  obtain ⟨⟨output, report⟩, found, three⟩ := checks
  have done := Outcome.toOption_eq_some.mp found
  have changed : output ≠ pausing := by
    rintro rfl
    cases three
  obtain ⟨_, again, enriched⟩ := instrument_again done
  exact ⟨output, report, done, changed, three, again changed _ _, enriched⟩

end ClassFile

end StackCoroutine
