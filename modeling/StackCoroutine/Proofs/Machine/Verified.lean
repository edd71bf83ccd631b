import StackCoroutine.Machine.Vm
import StackCoroutine.Proofs.Frame.Joins
import StackCoroutine.Proofs.Machine.Execution

/-!
Runs of verified code. Every invocation in progress has at least the operands and the local slots of
the frame that the analysis has found for its instruction, and a caller has those of the frame after
its call as soon as the result is there. A step keeps that, so no run ends in a structural error.
-/

namespace StackCoroutine

/-- What the analysis has found about a method that is ready to run. -/
structure Certificate (method : PreparedMethod) where
  setting : Analysis.Setting
  known : Analysis
  first : Frame
  sound : Analysis.Sound Frame.Within setting first ⟨known, []⟩
  entered : Frame.entry method.owner method.method = .ok first
  code : setting.code = method.code
  labels : setting.labels = method.labels
  handlers : ∀ range ∈ method.handlers, ∃ handler ∈ setting.handlers,
    handler.start = range.start ∧ handler.stop = range.stop ∧ handler.target = range.target
  type : MethodType
  typed : method.method.type = .ok type
  result : setting.result = type.result.kind
  parameters : method.parameters = type.parameters

/-- The ranges a method is prepared with are those its analysis goes by. -/
theorem PreparedMethod.ranges_handled {labels : LabelTable} {blocks : List TryBlock}
    {handlers : List Analysis.Handler} {ranges : List CatchRange}
    (resolved : blocks.mapM (Analysis.resolveHandler labels) = .ok handlers)
    (prepared : blocks.mapM (prepareRange labels) = .ok ranges) :
    ∀ range ∈ ranges, ∃ handler ∈ handlers,
      handler.start = range.start ∧ handler.stop = range.stop ∧ handler.target = range.target := by
  intro range member
  obtain ⟨block, inside, found⟩ := Outcome.mapM_mem prepared member
  obtain ⟨handler, listed, resolved⟩ := Outcome.mapM_mem_of_mem resolved inside
  obtain ⟨start, stop, _, target, _⟩ := Analysis.resolveHandler_eq_ok resolved
  simp only [prepareRange, Outcome.bind_eq_ok, Outcome.pure_eq_ok] at found
  obtain ⟨_, start', _, stop', _, target', rfl⟩ := found
  refine ⟨handler, listed, ?_, ?_, ?_⟩
  · simpa [start] using start'
  · simpa [stop] using stop'
  · simpa [target] using target'

/-- A method that passes the analysis has a certificate once it is prepared. -/
theorem PreparedMethod.certificate {hierarchy : Hierarchy} {owner : String} {method : Method}
    {known : Analysis} {prepared : PreparedMethod}
    (analyzed : Analysis.analyze hierarchy owner method = .ok known)
    (made : prepare owner method = .ok prepared) : Nonempty (Certificate prepared) := by
  obtain ⟨labels, handlers, result, first, ⟨collected, resolved, resulted, _, entered⟩, sound⟩ :=
    Analysis.analyze_sound (Frame.within_joining hierarchy) analyzed
  simp only [prepare, Outcome.bind_eq_ok, Outcome.mapError_eq_ok, Outcome.pure_eq_ok] at made
  obtain ⟨table, collected', ranges, resolved', type, typed, rfl⟩ := made
  rw [collected] at collected'
  cases collected'
  have results : result = type.result := by
    unfold Method.resultType at resulted
    rw [typed] at resulted
    exact (Outcome.pure_eq_ok.mp resulted).symm
  refine ⟨⟨_, known, first, sound, entered, rfl, rfl, ?_, type, typed, by rw [results], rfl⟩⟩
  exact ranges_handled resolved resolved'

/-- The method has passed the verification of its class and is prepared as it stands there. -/
structure PreparedMethod.Checked (method : PreparedMethod) : Prop where
  verified : ∃ hierarchy known,
    Verification.verifyMethod hierarchy method.owner method.method = .ok known
  made : prepare method.owner method.method = .ok method

/-- A prepared method belongs to the class and has the code it was prepared from. -/
theorem PreparedMethod.prepare_keeps {owner : String} {method : Method} {prepared : PreparedMethod}
    (made : prepare owner method = .ok prepared) :
    prepared.owner = owner ∧ prepared.method = method := by
  simp only [prepare, Outcome.bind_eq_ok, Outcome.mapError_eq_ok, Outcome.pure_eq_ok] at made
  obtain ⟨table, _, ranges, _, type, _, rfl⟩ := made
  exact ⟨rfl, rfl⟩

/-- The analysis knows a frame for the instruction that asks for no more than there is. -/
def Fits (known : Analysis) (index slots height : Nat) : Prop :=
  ∃ frame, known.frame? index = some frame ∧ frame.locals.length ≤ slots ∧
    frame.stack.length ≤ height

/-- An instruction with a known frame passes on frames that fit where it leads. -/
theorem Certificate.passed {method : PreparedMethod} (certificate : Certificate method)
    {index : Nat} {frame : Frame} (known : certificate.known.frame? index = some frame) :
    ∃ insn after next, method.code[index]? = some insn ∧
      (Transfer.execute index certificate.type.result.kind insn).run frame = .ok ((), after) ∧
      Analysis.successors certificate.setting index insn frame after = .ok next ∧
      ∀ target passedOn, (target, passedOn) ∈ next →
        Fits certificate.known target passedOn.locals.length passedOn.stack.length := by
  have inside : index < certificate.setting.code.size := by
    rw [← certificate.sound.size]
    exact Analysis.frame?_lt known
  have there : certificate.setting.code[index]? = some certificate.setting.code[index] :=
    Array.getElem?_eq_getElem inside
  obtain ⟨after, next, executed, listed, _, arrivals⟩ :=
    certificate.sound.passed index List.not_mem_nil _ frame there known
  refine ⟨_, after, next, ?_, ?_, listed, ?_⟩
  · rw [← certificate.code]
    exact there
  · rw [← certificate.result]
    exact executed
  · intro target passedOn member
    obtain ⟨_, mine, found, height, slots⟩ := arrivals target passedOn member
    exact ⟨mine, found, slots, Nat.le_of_eq height⟩

theorem Fits.mono {known : Analysis} {index slots height moreSlots moreHeight : Nat}
    (fits : Fits known index slots height) (wider : slots ≤ moreSlots)
    (higher : height ≤ moreHeight) : Fits known index moreSlots moreHeight := by
  obtain ⟨frame, found, least, low⟩ := fits
  exact ⟨frame, found, Nat.le_trans least wider, Nat.le_trans low higher⟩

/-- An invocation that can execute its instruction. -/
def Activation.Ready (activation : Activation) : Prop :=
  ∃ certificate : Certificate activation.method,
    Fits certificate.known activation.index activation.locals.length activation.stack.length

/-- An invocation whose call of the given method is in progress: it can go on with the result, and
what it has left is enough for its handlers. -/
def Activation.Waits (callee : PreparedMethod) (caller : Activation) : Prop :=
  ∃ certificate : Certificate caller.method,
    (∃ frame, certificate.known.frame? caller.index = some frame ∧
      frame.locals.length ≤ caller.locals.length) ∧
    ∀ type, callee.method.type = .ok type →
      Fits certificate.known (caller.index + 1) caller.locals.length
        (type.result.kind.toList.length + caller.stack.length)

/-- Each invocation waits for the one above it, the innermost of them for the given method. -/
def Chained (callee : PreparedMethod) : List Activation → Prop
  | [] => True
  | caller :: callers => caller.Waits callee ∧ Chained caller.method callers

namespace Machine

/-- The innermost invocation can go on, and all others wait. -/
def Progress.Alive : Progress → Prop
  | .running [] => True
  | .running (activation :: callers) => activation.Ready ∧ Chained activation.method callers
  | .done (.failed cause) => cause.isStructural = false
  | .done _ => True

/-- Arguments whose slots are there can all be placed. -/
theorem placeArguments_ok {fault : MachineError} {values : List (Value × Nat)} {slot : Nat}
    {locals : List Value} (positive : ∀ item ∈ values, 0 < item.2)
    (room : slot + (values.map Prod.snd).sum ≤ locals.length) :
    ∃ placed, Activation.placeArguments fault slot locals values = .ok placed ∧
      placed.length = locals.length := by
  induction values generalizing slot locals with
  | nil => exact ⟨locals, rfl, rfl⟩
  | cons item rest ih =>
      obtain ⟨value, size⟩ := item
      have first : 0 < size := positive (value, size) List.mem_cons_self
      simp only [List.map_cons, List.sum_cons] at room
      obtain ⟨placed, done, length⟩ := ih (fun item member => positive item (List.mem_cons_of_mem _ member))
        (show slot + size + (rest.map Prod.snd).sum ≤ (locals.set slot value).length by
          rw [List.length_set]
          omega)
      refine ⟨placed, ?_, by simpa using length⟩
      rw [Activation.placeArguments, if_pos (by omega)]
      exact done

theorem activation_enter {method : PreparedMethod} (certificate : Certificate method)
    (arguments : List Value) :
    match Activation.enter method arguments with
    | .ok activation => activation.method = method ∧ activation.index = 0 ∧
        activation.locals.length = method.method.maxLocals.toNat
    | .error cause => cause.isStructural = false := by
  obtain ⟨type, typed, room, _, _⟩ := Frame.entry_eq_ok certificate.entered
  have same : type = certificate.type := Except.ok.inj (typed.symm.trans certificate.typed)
  subst same
  rw [MethodType.parameterSlots, MethodType.slotsOf_eq, ← certificate.parameters] at room
  have positive := MethodType.parse_parameters certificate.typed
  rw [← certificate.parameters] at positive
  -- With as many arguments as the method takes there is a slot for each; with others it is refused.
  by_cases count : arguments.length = method.parameters.length + method.method.receiverSlots
  · have sizes : arguments.length =
        (List.replicate method.method.receiverSlots 1 ++ method.parameters.map ValueType.size).length := by
      simp [count, Nat.add_comm]
    obtain ⟨locals, placed, length⟩ : ∃ locals, Activation.placeArguments
          (.type (.tooFewLocals method.displayName)) 0
          (List.replicate method.method.maxLocals.toNat .null)
          (arguments.zip (List.replicate method.method.receiverSlots 1 ++
            method.parameters.map ValueType.size)) = .ok locals ∧
        locals.length = (List.replicate method.method.maxLocals.toNat Value.null).length :=
      placeArguments_ok (by
        intro item member
        have listed := (List.of_mem_zip member).2
        rcases List.mem_append.mp listed with receiver | parameter
        · simp [(List.mem_replicate.mp receiver).2]
        · obtain ⟨type, known, size⟩ := List.mem_map.mp parameter
          exact size ▸ positive type known)
      (by
        rw [List.map_snd_zip (Nat.le_of_eq sizes.symm)]
        simpa using room)
    have entered : Activation.enter method arguments = .ok ⟨method, 0, locals, []⟩ := by
      simp [Activation.enter, count, placed]
    rw [entered]
    exact ⟨rfl, rfl, by simpa using length⟩
  · have refused : Activation.enter method arguments = .error (.type (.argumentCount
        method.displayName (method.parameters.length + method.method.receiverSlots)
        arguments.length)) := by
      unfold Activation.enter
      rw [if_pos count]
      rfl
    rw [refused]
    exact rfl

/-- A call of a method with a certificate begins, or is refused for its arguments or its depth. -/
theorem enter_alive {method : PreparedMethod} (certified : Nonempty (Certificate method))
    (arguments : List Value) {callers : List Activation} (chained : Chained method callers) :
    (enter method arguments callers).Alive := by
  obtain ⟨certificate⟩ := certified
  unfold enter
  split
  · exact rfl
  have entered := activation_enter certificate arguments
  split
  · rename_i activation found
    rw [found] at entered
    obtain ⟨rfl, index, length⟩ := entered
    refine ⟨⟨certificate, ?_⟩, chained⟩
    obtain ⟨frame, known, height, slots⟩ := certificate.sound.entry
    obtain ⟨_, _, _, locals, empty⟩ := Frame.entry_eq_ok certificate.entered
    refine ⟨frame, index ▸ known, ?_, ?_⟩
    · rw [length, ← locals]
      exact slots
    · simp [height, empty]
  · rename_i cause found
    rw [found] at entered
    exact entered

/-- A caller goes on once its callee has returned what its descriptor tells. -/
theorem leave_alive {method : PreparedMethod} {type : MethodType} {value : Option Value}
    {callers : List Activation} (typed : method.method.type = .ok type)
    (given : value.isSome = type.result.kind.isSome) (chained : Chained method callers) :
    (leave value callers).Alive := by
  cases callers with
  | nil => exact trivial
  | cons caller rest =>
      obtain ⟨⟨certificate, _, goes⟩, others⟩ := chained
      obtain ⟨frame, known, slots, height⟩ := goes type typed
      refine ⟨⟨certificate, frame, known, slots, ?_⟩, others⟩
      refine Nat.le_trans height (Nat.le_of_eq ?_)
      cases value <;> cases kind : type.result.kind <;> simp_all [Nat.add_comm]

/-- An invocation can handle an exception whatever its operands are. -/
def Handles (activation : Activation) : Prop :=
  ∃ certificate : Certificate activation.method, ∃ frame,
    certificate.known.frame? activation.index = some frame ∧
      frame.locals.length ≤ activation.locals.length

theorem handler_ready {classes : ClassTable} {activation : Activation} (handles : Handles activation)
    {className : String} {target : Nat} {exception : ObjectRef}
    (found : handler? classes activation className = some target) :
    ({ activation with index := target, stack := [.ref exception] } : Activation).Ready := by
  obtain ⟨certificate, frame, known, slots⟩ := handles
  obtain ⟨range, chosen, rfl⟩ := Option.map_eq_some_iff.mp found
  obtain ⟨handler, listed, start, stop, target⟩ :=
    certificate.handlers range (List.mem_of_find?_eq_some chosen)
  have covered : handler.covers activation.index = true := by
    have applies := List.find?_some chosen
    simp only [Bool.and_eq_true] at applies
    unfold Analysis.Handler.covers
    rw [start, stop]
    exact applies.1
  obtain ⟨insn, after, next, _, _, listing, arrivals⟩ := certificate.passed known
  have member := (Analysis.mem_successors listing range.target _).mpr
    (Or.inl ⟨handler, listed, covered, target, rfl⟩)
  exact ⟨certificate, (arrivals _ _ member).mono slots (Nat.le_refl _)⟩

theorem unwind_alive {classes : ClassTable} {heap : Heap} {exception : ObjectRef}
    {activation : Activation} {callers : List Activation} (handles : Handles activation)
    (chained : Chained activation.method callers) :
    (unwind classes heap exception (activation :: callers)).Alive := by
  induction callers generalizing activation with
  | nil =>
      unfold unwind
      split
      · rename_i fault failed
        exact Harmless.className heap exception fault failed
      split
      · rename_i target found
        exact ⟨handler_ready handles found, chained⟩
      · exact trivial
  | cons caller rest ih =>
      unfold unwind
      split
      · rename_i fault failed
        exact Harmless.className heap exception fault failed
      split
      · rename_i target found
        exact ⟨handler_ready handles found, chained⟩
      · obtain ⟨⟨certificate, frame, _⟩, others⟩ := chained
        exact ih ⟨certificate, frame⟩ others

end Machine

/-- Every method of the table has a certificate, and every field a type. -/
structure ClassTable.Certified (classes : ClassTable) : Prop where
  methods : ∀ method, classes.Holds method → Nonempty (Certificate method)
  fields : classes.FieldsParse

variable {classes : ClassTable}

/-- An instruction that an analysed frame allows does what it may where there is as much as in the
frame. -/
theorem Certificate.executes (certified : classes.Certified) {activation : Activation}
    (certificate : Certificate activation.method) {frame after : Frame} {insn : Insn}
    {next : List (Nat × Frame)} (slots : frame.locals.length ≤ activation.locals.length)
    (height : frame.stack.length ≤ activation.stack.length)
    (executed : (Transfer.execute activation.index certificate.type.result.kind insn).run frame =
      .ok ((), after))
    (listed : Analysis.successors certificate.setting activation.index insn frame after = .ok next) :
    Exec.Safe (fun outcome => Execution.Follows classes (Execution.siteOf activation)
      after.stack.length certificate.type.result.kind insn outcome.1 outcome.2)
      ((Execution.execute classes insn).run activation) := by
  have resolves : ∀ label ∈ insn.targets,
      ∃ place, Analysis.resolve activation.method.labels label = .ok place := by
    rw [← certificate.labels]
    exact Analysis.successors_resolve listed
  have room : frame.kinds.locals.length ≤ (Execution.siteOf activation).slots := by
    simpa [Frame.kinds, Execution.siteOf] using slots
  have runs := Execution.execute_runs certified.fields (Transfer.execute_step _ executed) room
    resolves activation rfl (by simpa [Frame.kinds] using height)
  have heights : after.kinds.stack.length = after.stack.length := by simp [Frame.kinds]
  rwa [heights] at runs

/-- What an instruction does within an invocation that is ready for it, if it comes to a value. -/
theorem Activation.Ready.follows (certified : classes.Certified) {activation left : Activation}
    (ready : activation.Ready) {insn : Insn} {flow : Flow} {world later : World}
    (there : activation.method.code[activation.index]? = some insn)
    (ran : ((Execution.execute classes insn).run activation).run world = (.ok (flow, left), later)) :
    ∃ height type, activation.method.method.type = .ok type ∧ Execution.Follows classes
      (Execution.siteOf activation) height type.result.kind insn flow left := by
  obtain ⟨certificate, frame, known, slots, height⟩ := ready
  obtain ⟨insn', after, next, there', executed, listed, _⟩ := certificate.passed known
  cases there.symm.trans there'
  have done := certificate.executes certified slots height executed listed world
  rw [ran] at done
  exact ⟨_, certificate.type, certificate.typed, done⟩

namespace Machine

/-- A step of a run leaves it able to go on, or ends it with no structural error. -/
theorem step_alive (certified : classes.Certified) {activations : List Activation}
    (alive : (Progress.running activations).Alive) (world : World) :
    (step classes activations world).1.Alive := by
  cases activations with
  | nil => exact trivial
  | cons activation callers =>
      obtain ⟨⟨certificate, frame, known, slots, height⟩, chained⟩ := alive
      obtain ⟨insn, after, next, there, executed, listed, arrivals⟩ := certificate.passed known
      have runs := certificate.executes certified slots height executed listed world
      have locals : after.locals.length = frame.locals.length := by
        simpa [Frame.kinds] using KindFrame.step_locals (Transfer.execute_step _ executed)
      unfold step
      simp only [there]
      rcases outcome : ((Execution.execute classes insn).run activation).run world with
        ⟨(cause | exception) | ⟨flow, left⟩, later⟩
      · simp only [outcome] at runs
        exact runs
      · exact unwind_alive ⟨certificate, frame, known, slots⟩ chained
      · simp only [outcome] at runs
        obtain ⟨same, goes⟩ := runs
        obtain ⟨method, index, held, stack⟩ := left
        obtain ⟨rfl, rfl, length⟩ : method = activation.method ∧ index = activation.index ∧
            held.length = activation.locals.length := by
          simpa [Execution.siteOf] using same
        have room : after.locals.length ≤ held.length := by omega
        -- Whatever the frame after the instruction asks for is there in `left`.
        have goesOn : insn.isTerminator = false → ∀ more, after.stack.length ≤ more →
            Fits certificate.known (activation.index + 1) held.length more := by
          intro continues more enough
          have member := (Analysis.mem_successors listed (activation.index + 1) after).mpr
            (Or.inr (Or.inr ⟨continues, rfl, rfl⟩))
          exact (arrivals _ _ member).mono room enough
        cases flow with
        | next => exact ⟨⟨certificate, goesOn goes.1 _ goes.2⟩, chained⟩
        | jump place =>
            obtain ⟨enough, label, target, found⟩ := goes
            have resolved : Analysis.resolve certificate.setting.labels label = .ok place := by
              rw [certificate.labels]
              exact found
            have member := (Analysis.mem_successors listed place after).mpr
              (Or.inr (Or.inl ⟨⟨label, target, resolved⟩, rfl⟩))
            exact ⟨⟨certificate, (arrivals _ _ member).mono room enough⟩, chained⟩
        | «return» value => exact leave_alive certificate.typed goes chained
        | call callee values =>
            obtain ⟨continues, loaded, type, typed, enough⟩ := goes
            refine enter_alive (certified.methods callee loaded) values ⟨⟨certificate, ?_, ?_⟩, chained⟩
            · exact ⟨frame, known, Nat.le_trans slots (Nat.le_of_eq length.symm)⟩
            · intro other typed'
              rw [typed] at typed'
              cases typed'
              exact goesOn continues _ enough

/-- A run that begins well ends with no structural error. -/
theorem run_alive (certified : classes.Certified) (limit : Nat) {progress : Progress}
    (alive : progress.Alive) (world : World) :
    (Progress.done (run classes limit progress world).1).Alive := by
  induction limit generalizing progress world with
  | zero =>
      cases progress with
      | running activations => exact rfl
      | done outcome => exact alive
  | succ limit ih =>
      cases progress with
      | running activations => exact ih (step_alive certified alive world) _
      | done outcome => exact alive

end Machine

/-- The tables that loading classes leads to from the empty one; a batch that is refused leaves those
of its classes that came before. -/
inductive ClassTable.Accepted : ClassTable → Prop where
  | empty : Accepted .empty
  | load {table : ClassTable} (files : List ClassFile) :
      Accepted table → Accepted (table.loadAll files).2

namespace Verification

theorem verifyFields_parse {seen : List String} {fields : List Field}
    (verified : verifyFields seen fields = .ok ()) :
    ∀ field ∈ fields, ∃ type, ValueType.parse field.descriptor = .ok type := by
  induction fields generalizing seen with
  | nil => simp
  | cons first rest ih =>
      obtain ⟨type, parsed, verified⟩ := Outcome.bind_eq_ok.mp verified
      split at verified
      · exact absurd verified Outcome.throw_bind_ne_ok
      · intro field member
        rcases List.mem_cons.mp member with rfl | later
        · exact ⟨type, Outcome.mapError_eq_ok.mp parsed⟩
        · exact ih verified field later

theorem verifyMethod_analyze {hierarchy : Hierarchy} {owner : String} {method : Method}
    {known : Analysis} (verified : verifyMethod hierarchy owner method = .ok known) :
    Analysis.analyze hierarchy owner method = .ok known := by
  unfold verifyMethod at verified
  dsimp only at verified
  split at verified
  · exact absurd verified Outcome.throw_bind_ne_ok
  obtain ⟨found, analyzed, verified⟩ := Outcome.bind_eq_ok.mp verified
  split at verified
  · exact absurd verified Outcome.throw_bind_ne_ok
  cases Outcome.pure_eq_ok.mp verified
  exact Outcome.mapError_eq_ok.mp analyzed

theorem verifyMethods_member {hierarchy : Hierarchy} {owner : String}
    {seen : List (String × String)} {methods : List Method} {found : List (Option Analysis)}
    (verified : verifyMethods hierarchy owner seen methods = .ok found) :
    ∀ method ∈ methods, ∃ analysis, verifyMember hierarchy owner method = .ok analysis := by
  induction methods generalizing seen found with
  | nil => simp
  | cons first rest ih =>
      unfold verifyMethods at verified
      split at verified
      · exact absurd verified Outcome.throw_bind_ne_ok
      obtain ⟨analysis, here, verified⟩ := Outcome.bind_eq_ok.mp verified
      obtain ⟨others, later, _⟩ := Outcome.bind_eq_ok.mp verified
      intro method member
      rcases List.mem_cons.mp member with rfl | tail
      · exact ⟨analysis, here⟩
      · exact ih later method tail

end Verification

theorem PreparedMethod.Checked.certificate {method : PreparedMethod} (checked : method.Checked) :
    Nonempty (Certificate method) := by
  obtain ⟨hierarchy, known, verified⟩ := checked.verified
  exact PreparedMethod.certificate (Verification.verifyMethod_analyze verified) checked.made

namespace ClassTable

theorem prepareClass_checked {hierarchy : Hierarchy} {file : ClassFile} {loaded : LoadedClass}
    (prepared : prepareClass hierarchy file = .ok loaded) :
    (∀ method ∈ loaded.methods, method.Checked) ∧
      ∀ field ∈ loaded.file.fields, ∃ type, ValueType.parse field.descriptor = .ok type := by
  simp only [prepareClass, Outcome.bind_eq_ok, Outcome.mapError_eq_ok, Outcome.pure_eq_ok]
    at prepared
  obtain ⟨_, verified, methods, made, rfl⟩ := prepared
  obtain ⟨_, fields, methodsVerified⟩ := Outcome.bind_eq_ok.mp verified
  refine ⟨?_, Verification.verifyFields_parse fields⟩
  intro method member
  obtain ⟨body, listed, ready⟩ := Outcome.mapM_mem made member
  obtain ⟨inside, concrete⟩ := List.mem_filter.mp listed
  obtain ⟨analysis, found⟩ := Verification.verifyMethods_member methodsVerified body inside
  unfold Verification.verifyMember at found
  rw [if_neg (by simpa using concrete)] at found
  obtain ⟨owner, same⟩ := PreparedMethod.prepare_keeps ready
  rw [← owner, ← same] at found ready
  cases verified : Verification.verifyMethod hierarchy method.owner method.method with
  | error cause => simp [verified, Except.map] at found
  | ok known => exact ⟨⟨hierarchy, known, verified⟩, ready⟩

/-- Every method of the table has been checked, and every field has a type. -/
structure Checked (table : ClassTable) : Prop where
  methods : ∀ method, table.Holds method → method.Checked
  fields : table.FieldsParse

theorem insert_checked {table : ClassTable} {loaded : LoadedClass} (checked : table.Checked)
    (methods : ∀ method ∈ loaded.methods, method.Checked)
    (fields : ∀ field ∈ loaded.file.fields, ∃ type, ValueType.parse field.descriptor = .ok type) :
    (table.insert loaded).Checked where
  methods method held := by
    obtain ⟨entry, member, inside⟩ := held
    rcases List.mem_cons.mp member with rfl | before
    · exact methods method inside
    · exact checked.methods method ⟨entry, (List.mem_filter.mp before).1, inside⟩
  fields entry member := by
    rcases List.mem_cons.mp member with rfl | before
    · exact fields
    · exact checked.fields entry (List.mem_filter.mp before).1

theorem loadInTurn_checked {table : ClassTable} {files : List ClassFile}
    (checked : table.Checked) : (table.loadInTurn files).2.Checked := by
  induction files generalizing table with
  | nil => exact checked
  | cons file rest ih =>
      unfold loadInTurn
      split
      · exact checked
      · rename_i loaded prepared
        obtain ⟨methods, fields⟩ := prepareClass_checked prepared
        exact ih (insert_checked checked methods fields)

theorem Accepted.checked {table : ClassTable} (accepted : table.Accepted) : table.Checked := by
  induction accepted with
  | empty =>
      refine ⟨?_, fun entry member => ?_⟩
      · rintro method ⟨entry, member, _⟩
        simp [ClassTable.empty] at member
      · simp [ClassTable.empty] at member
  | load files _ ih => exact loadInTurn_checked ⟨ih.methods, ih.fields⟩

theorem Checked.certified {table : ClassTable} (checked : table.Checked) : table.Certified where
  methods method held := (checked.methods method held).certificate
  fields := checked.fields

theorem Accepted.certified {table : ClassTable} (accepted : table.Accepted) : table.Certified :=
  accepted.checked.certified

end ClassTable

theorem Vm.loadClasses_classes (vm : Vm) (files : List ClassFile) :
    (vm.loadClasses files).2.classes = (vm.classes.loadAll files).2 := by
  unfold loadClasses
  split
  · rename_i outcome
    rw [outcome]
  · rename_i outcome
    split <;> rw [outcome]

/-- The classes of a machine stay accepted when more are loaded into it, whether it refuses them or
not. -/
theorem Vm.loadClasses_accepted {vm : Vm} (accepted : vm.classes.Accepted)
    (files : List ClassFile) : (vm.loadClasses files).2.classes.Accepted := by
  rw [loadClasses_classes]
  exact accepted.load files

theorem Vm.uncaught_mild (heap : Heap) (exception : ObjectRef) :
    (uncaught heap exception).isStructural = false := by
  unfold uncaught
  split
  · rename_i fault failed
    exact Harmless.get heap exception fault failed
  · exact rfl

theorem Vm.staticMethod_held {vm : Vm} {method : MethodRef} {prepared : PreparedMethod}
    (found : vm.staticMethod method = .ok prepared) : vm.classes.Holds prepared := by
  unfold staticMethod at found
  split at found
  · simp at found
  rename_i loaded known
  split at found
  · rename_i candidate chosen
    cases found
    obtain ⟨entry, member, rfl⟩ := ClassTable.find?_mem known
    have declared := (Option.filter_eq_some_iff.mp chosen).1
    exact ⟨entry, member, List.mem_of_find?_eq_some declared⟩
  · simp at found

/-- No invocation of a static method, of classes that were accepted, ends in an error of the code. -/
theorem Vm.invokeStatic_error_mild {vm : Vm} (accepted : vm.classes.Accepted) (limit : Nat)
    (method : MethodRef) (arguments : List Value) (context : Option (Context Value))
    {cause : MachineError}
    (failed : (vm.invokeStatic limit method arguments context).1 = .error cause) :
    cause.isStructural = false := by
  have certified := accepted.certified
  unfold invokeStatic at failed
  cases found : vm.staticMethod method with
  | error refusal =>
      simp only [found, Except.error.injEq] at failed
      subst failed
      unfold staticMethod at found
      split at found
      · cases found
        rfl
      · split at found <;> cases found
        rfl
  | ok prepared =>
      have begins : (Machine.enter prepared arguments []).Alive :=
        Machine.enter_alive (certified.methods prepared (staticMethod_held found)) arguments trivial
      have ends := Machine.run_alive certified limit begins (vm.world context)
      simp only [found] at failed
      split at failed
      · simp at failed
      · cases failed
        exact uncaught_mild _ _
      · rename_i outcome ended
        cases failed
        rw [ended] at ends
        exact ends

/-- A class whose only method divides by zero. -/
def dividing : ClassFile :=
  { ClassFile.empty "Dividing" with
    methods := [⟨Access.isStatic, "run", "()V", 2, 0,
      [.intConst 1, .intConst 0, .binary .int .div, .pop, .return none], []⟩] }

theorem Vm.invokeStatic_error_mild_dividing :
    ∃ cause, ((Vm.empty.loadClasses [dividing]).2.invokeStatic 10 ⟨"Dividing", "run", "()V"⟩ []
      none).1 = .error cause ∧ cause.isStructural = false := by
  have thrown : ((Vm.empty.loadClasses [dividing]).2.invokeStatic 10 ⟨"Dividing", "run", "()V"⟩ []
      none).1 = .error (.uncaught Names.arithmetic (some "/ by zero")) := by
    decide +kernel
  have accepted : (Vm.empty.loadClasses [dividing]).2.classes.Accepted :=
    Vm.loadClasses_accepted .empty [dividing]
  exact ⟨_, thrown, Vm.invokeStatic_error_mild accepted 10 _ [] none thrown⟩

end StackCoroutine
