import StackCoroutine.Proofs.Machine.Effects
import StackCoroutine.Proofs.Machine.Verified

/-!
Runs within their analysed frames. The frame known at the instruction of the innermost invocation
describes its locals and operands; a caller is described by the frame of its call, whatever operands
an exception may leave it, and with any result of its callee by the frame after the call. A step
keeps that, as long as the values fetched from fields and from methods of the machine are as
declared.
-/

namespace StackCoroutine

variable {tells : FrameValue → Value → Prop}

/-- The frame known at an instruction describes these locals and operands. -/
def Analysis.Describes (tells : FrameValue → Value → Prop) (known : Analysis) (index : Nat)
    (locals stack : List Value) : Prop :=
  ∃ frame, known.frame? index = some frame ∧ frame.Describes tells locals stack

theorem Analysis.Arrived.describes {known : Analysis} {index : Nat} {frame : Frame}
    {locals stack : List Value} (arrived : Arrived (Frame.Above tells) known index frame)
    (described : frame.Describes tells locals stack) :
    known.Describes tells index locals stack := by
  obtain ⟨mine, found, above⟩ := arrived
  exact ⟨mine, found, above locals stack described⟩

/-- What an analysis of a method has found, in terms of the method as it is executed. -/
structure Charted (tells : FrameValue → Value → Prop) (method : PreparedMethod)
    (known : Analysis) : Prop where
  entry : ∃ first, Frame.entry method.owner method.method = .ok first ∧
    Analysis.Arrived (Frame.Above tells) known 0 first
  passed : ∀ type index frame, method.method.type = .ok type →
    known.frame? index = some frame → ∃ insn after, method.code[index]? = some insn ∧
      (Transfer.execute index type.result.kind insn).run frame = .ok ((), after) ∧
      (insn.isTerminator = false → Analysis.Arrived (Frame.Above tells) known (index + 1) after) ∧
      (∀ label ∈ insn.targets, ∀ place, Analysis.resolve method.labels label = .ok place →
        Analysis.Arrived (Frame.Above tells) known place after) ∧
      ∀ range ∈ method.handlers, range.covers index = true → ∃ caught,
        Analysis.Arrived (Frame.Above tells) known range.target
          { frame with stack := [.reference caught] }

/-- Every analysis of a method that accepts it charts the method once it is prepared. -/
theorem PreparedMethod.charted (telling : Telling tells) {hierarchy : Hierarchy} {owner : String}
    {method : Method} {known : Analysis} {prepared : PreparedMethod}
    (analyzed : Analysis.analyze hierarchy owner method = .ok known)
    (made : prepare owner method = .ok prepared) : Charted tells prepared known := by
  obtain ⟨labels, handlers, result, first, ⟨collected, resolved, resulted, _, entered⟩, sound⟩ :=
    Analysis.analyze_sound (Frame.above_joining telling hierarchy) analyzed
  simp only [prepare, Outcome.bind_eq_ok, Outcome.mapError_eq_ok, Outcome.pure_eq_ok] at made
  obtain ⟨table, collected', ranges, resolved', type, typed, rfl⟩ := made
  rw [collected] at collected'
  cases collected'
  have results : result = type.result := by
    unfold Method.resultType at resulted
    rw [typed] at resulted
    exact (Outcome.pure_eq_ok.mp resulted).symm
  subst results
  refine ⟨⟨first, entered, sound.entry⟩, fun type' index frame typed' found => ?_⟩
  cases typed.symm.trans typed'
  have inside : index < method.code.toArray.size := by
    rw [← sound.size]
    exact Analysis.frame?_lt found
  have there := Array.getElem?_eq_getElem inside
  obtain ⟨after, next, executed, listed, _, arrivals⟩ :=
    sound.passed index List.not_mem_nil _ frame there found
  have reaches := Analysis.mem_successors listed
  refine ⟨_, after, there, executed, ?_, ?_, ?_⟩
  · intro continues
    exact (arrivals _ _ ((reaches _ _).mpr (.inr (.inr ⟨continues, rfl, rfl⟩)))).2
  · intro label target place place_eq
    exact (arrivals _ _ ((reaches _ _).mpr (.inr (.inl ⟨⟨label, target, place_eq⟩, rfl⟩)))).2
  · intro range member covered
    obtain ⟨handler, listed, start, stop, target⟩ := ranges_handled resolved resolved' range member
    have covers : handler.covers index = true := by
      unfold Analysis.Handler.covers
      rw [start, stop]
      exact covered
    exact ⟨handler.caught,
      (arrivals _ _ ((reaches _ _).mpr (.inl ⟨handler, listed, covers, target, rfl⟩))).2⟩

/-- An analysis that accepts the method. -/
def PreparedMethod.Analyzed (method : PreparedMethod) (known : Analysis) : Prop :=
  ∃ hierarchy, Analysis.analyze hierarchy method.owner method.method = .ok known

theorem PreparedMethod.Checked.analyzed {method : PreparedMethod} (checked : method.Checked) :
    ∃ known, method.Analyzed known := by
  obtain ⟨hierarchy, known, verified⟩ := checked.verified
  exact ⟨known, hierarchy, Verification.verifyMethod_analyze verified⟩

theorem PreparedMethod.Checked.charted {method : PreparedMethod} (checked : method.Checked)
    (telling : Telling tells) {known : Analysis} (analyzed : method.Analyzed known) :
    Charted tells method known := by
  obtain ⟨hierarchy, analyzed⟩ := analyzed
  exact PreparedMethod.charted telling analyzed checked.made

theorem PreparedMethod.Checked.typed {method : PreparedMethod} (checked : method.Checked) :
    ∃ type, method.method.type = .ok type ∧ method.parameters = type.parameters := by
  obtain ⟨certificate⟩ := checked.certificate
  exact ⟨_, certificate.typed, certificate.parameters⟩

namespace Activation

/-- The frames known at the instruction describe the invocation. -/
def Described (tells : FrameValue → Value → Prop) (activation : Activation) : Prop :=
  ∀ known, activation.method.Analyzed known →
    known.Describes tells activation.index activation.locals activation.stack

/-- The frames known at the instruction describe the locals. -/
def LocalsDescribed (tells : FrameValue → Value → Prop) (activation : Activation) : Prop :=
  ∀ known, activation.method.Analyzed known →
    ∃ stack, known.Describes tells activation.index activation.locals stack

/-- With any result of the callee, the frames known after the call describe the invocation. -/
def Continues (tells : FrameValue → Value → Prop) (callee : PreparedMethod)
    (caller : Activation) : Prop :=
  ∀ known, caller.method.Analyzed known → ∀ type (value : Option Value),
    callee.method.type = .ok type → value.map Value.kind = type.result.kind →
      known.Describes tells (caller.index + 1) caller.locals (value.toList ++ caller.stack)

theorem Described.locals {activation : Activation} (described : activation.Described tells) :
    activation.LocalsDescribed tells :=
  fun known analyzed => ⟨_, described known analyzed⟩

end Activation

namespace Machine

/-- Each invocation can go on once the one above it has returned, the innermost of them once the
given method has. -/
def Awaits (tells : FrameValue → Value → Prop) (callee : PreparedMethod) : List Activation → Prop
  | [] => True
  | caller :: callers =>
      caller.method.Checked ∧ caller.LocalsDescribed tells ∧ caller.Continues tells callee ∧
        Awaits tells caller.method callers

/-- The frames of its method describe the innermost invocation, and all others can go on. -/
def Progress.Described (tells : FrameValue → Value → Prop) : Progress → Prop
  | .running (activation :: callers) =>
      activation.method.Checked ∧ activation.Described tells ∧
        Awaits tells activation.method callers
  | _ => True

/-- Receiver and arguments that were passed are those the first frame of a method asks for, as far
as their number is right. -/
theorem arguments_told {method : PreparedMethod} {type : MethodType} {receiver : Bool}
    {arguments : List Value} (typed : method.method.type = .ok type)
    (passed : Passed tells receiver type.parameters arguments)
    (count : arguments.length = type.parameters.length + method.method.receiverSlots) :
    List.Forall₂ tells (Frame.arguments method.owner method.method type) arguments := by
  have told := passed method.owner
  have declared : (type.parameters.filterMap FrameValue.ofType?).length =
      type.parameters.length := by
    simpa using congrArg List.length (Frame.parameters_each (MethodType.parse_parameters typed))
  have length := told.length_eq
  rw [List.length_append, declared] at length
  unfold Method.receiverSlots at count
  unfold Frame.arguments
  cases fixed : method.method.isStatic <;> cases receiver <;>
    simp only [fixed, Bool.false_eq_true, if_true, if_false, List.length_nil, List.length_singleton]
      at count length told ⊢ <;> first | exact told | omega

theorem enter_described {method : PreparedMethod} {arguments : List Value}
    {callers : List Activation} (telling : Telling tells) (checked : method.Checked)
    (told : ∀ type, method.method.type = .ok type →
      arguments.length = type.parameters.length + method.method.receiverSlots →
        List.Forall₂ tells (Frame.arguments method.owner method.method type) arguments)
    (awaits : Awaits tells method callers) :
    (enter method arguments callers).Described tells := by
  unfold enter
  split
  · exact trivial
  split
  · rename_i activation entered
    obtain ⟨type, typed, parameters⟩ := checked.typed
    have told := told type typed (parameters ▸ Activation.enter_count entered)
    -- The first frame depends on the method alone, so one analysis gives it for all of them.
    obtain ⟨known, analyzed⟩ := checked.analyzed
    obtain ⟨first, entry, _⟩ := (checked.charted telling analyzed).entry
    obtain ⟨rfl, start, described⟩ := Activation.enter_described typed parameters entry told entered
    refine ⟨checked, fun known analyzed => ?_, awaits⟩
    obtain ⟨first', entry', arrived⟩ := (checked.charted telling analyzed).entry
    cases entry.symm.trans entry'
    rw [start]
    exact arrived.describes described
  · exact trivial

theorem leave_described {method : PreparedMethod} {type : MethodType} {value : Option Value}
    {callers : List Activation} (typed : method.method.type = .ok type)
    (given : value.map Value.kind = type.result.kind) (awaits : Awaits tells method callers) :
    (leave value callers).Described tells := by
  cases callers with
  | nil => exact trivial
  | cons caller rest =>
      obtain ⟨checked, _, continues, others⟩ := awaits
      exact ⟨checked, fun known analyzed => continues known analyzed type value typed given, others⟩

theorem handler_described (telling : Telling tells) {classes : ClassTable} {activation : Activation}
    (checked : activation.method.Checked) (described : activation.LocalsDescribed tells)
    {className : String} {target : Nat} {exception : ObjectRef}
    (found : handler? classes activation className = some target) :
    Activation.Described tells
      { activation with index := target, stack := [.ref exception] } := by
  obtain ⟨range, chosen, rfl⟩ := Option.map_eq_some_iff.mp found
  have applies := List.find?_some chosen
  simp only [Bool.and_eq_true] at applies
  intro known analyzed
  obtain ⟨stack, frame, here, tellsOf⟩ := described known analyzed
  obtain ⟨type, typed, _⟩ := checked.typed
  obtain ⟨insn, after, _, _, _, _, handles⟩ :=
    (checked.charted telling analyzed).passed type _ _ typed here
  obtain ⟨caught, arrived⟩ := handles range (List.mem_of_find?_eq_some chosen) applies.1
  have told : tells (.reference caught) (.ref exception) := telling.ofKind rfl nofun
  exact arrived.describes ⟨tellsOf.locals, .cons told .nil⟩

theorem unwind_described (telling : Telling tells) {classes : ClassTable} {heap : Heap}
    {exception : ObjectRef} {activation : Activation} {callers : List Activation}
    (checked : activation.method.Checked) (described : activation.LocalsDescribed tells)
    (awaits : Awaits tells activation.method callers) :
    (unwind classes heap exception (activation :: callers)).Described tells := by
  -- Outward over the callers: an exception asks of them no more than that their locals are described.
  induction callers generalizing activation with
  | nil =>
      unfold unwind
      split
      · exact trivial
      split
      · rename_i target found
        exact ⟨checked, handler_described telling checked described found, awaits⟩
      · exact trivial
  | cons caller rest ih =>
      unfold unwind
      split
      · exact trivial
      split
      · rename_i target found
        exact ⟨checked, handler_described telling checked described found, awaits⟩
      · obtain ⟨callerChecked, locals, _, others⟩ := awaits
        exact ih callerChecked locals others

/-- In the next step of the run, what is fetched is as declared. -/
def Fetching (tells : FrameValue → Value → Prop) (classes : ClassTable) (activation : Activation)
    (world : World) : Prop :=
  ∀ insn left later, activation.method.code[activation.index]? = some insn →
    Execution.Yields (Execution.execute classes insn) activation world .next left later →
      insn.Fetches tells left

/-- What follows from every analysis of a method if an instruction comes to a value. -/
theorem goes_of_described (telling : Telling tells) {classes : ClassTable} {activation : Activation}
    {world : World} (checked : activation.method.Checked) (described : activation.Described tells)
    (fetching : Fetching tells classes activation world) {type : MethodType}
    (typed : activation.method.method.type = .ok type) {insn : Insn}
    (there : activation.method.code[activation.index]? = some insn) {flow : Flow}
    {left : Activation} {later : World}
    (yields : Execution.Yields (Execution.execute classes insn) activation world flow left later) :
    ∀ known, activation.method.Analyzed known → ∃ after,
      Execution.Goes tells classes (Execution.siteOf activation) type.result.kind insn after flow
        left ∧
      (insn.isTerminator = false →
        Analysis.Arrived (Frame.Above tells) known (activation.index + 1) after) ∧
      ∀ label ∈ insn.targets, ∀ place,
        Analysis.resolve activation.method.labels label = .ok place →
          Analysis.Arrived (Frame.Above tells) known place after := by
  intro known analyzed
  obtain ⟨frame, here, describes⟩ := described known analyzed
  obtain ⟨insn', after, there', executed, following, branches, _⟩ :=
    (checked.charted telling analyzed).passed type _ _ typed here
  cases there.symm.trans there'
  refine ⟨after, ?_, following, branches⟩
  refine Execution.execute_agrees telling _ _ _ _ _ _ _ rfl describes executed yields ?_
  rintro rfl
  exact fetching insn left later there yields

/-- A step of a run in which what is fetched is as declared stays within the analysed frames. -/
theorem step_described (telling : Telling tells) {classes : ClassTable} (accepted : classes.Checked)
    {activation : Activation} {callers : List Activation} {world : World}
    (described : (Progress.running (activation :: callers)).Described tells)
    (fetching : Fetching tells classes activation world) :
    (step classes (activation :: callers) world).1.Described tells := by
  obtain ⟨checked, fits, awaits⟩ := described
  obtain ⟨type, typed, _⟩ := checked.typed
  obtain ⟨some, analyzed⟩ := checked.analyzed
  unfold step
  cases there : activation.method.code[activation.index]? with
  | none => simp only [there]; exact trivial
  | some insn =>
    simp only [there]
    rcases outcome : ((Execution.execute classes insn).run activation).run world with
      ⟨(cause | exception) | ⟨flow, left⟩, later⟩
    · exact trivial
    · exact unwind_described telling checked fits.locals awaits
    · have goes := goes_of_described telling checked fits fetching typed there outcome
      -- No instruction leaves its invocation for another one, whichever analysis is asked.
      obtain ⟨_, ⟨same, here⟩, _⟩ := goes some analyzed
      obtain ⟨method, index, locals, stack⟩ := left
      obtain ⟨rfl, rfl, _⟩ : method = activation.method ∧ index = activation.index ∧
          locals.length = activation.locals.length := by
        simpa [Execution.siteOf] using same
      cases flow with
      | next =>
          refine ⟨checked, fun known analyzed => ?_, awaits⟩
          obtain ⟨after, ⟨_, continues, describes⟩, following, _⟩ := goes known analyzed
          exact (following continues).describes describes
      | jump place =>
          refine ⟨checked, fun known analyzed => ?_, awaits⟩
          obtain ⟨after, ⟨_, describes, label, target, resolved⟩, _, branches⟩ :=
            goes known analyzed
          exact (branches label target place resolved).describes describes
      | «return» value => exact leave_described typed here awaits
      | call callee arguments =>
          obtain ⟨⟨dispatch, target, rfl⟩, held, calleeType, receiver, calleeTyped, passed, _⟩ :=
            here
          have kept : locals = activation.locals := Execution.invoke_locals outcome
          subst kept
          refine enter_described telling (accepted.methods callee held) ?_
            ⟨checked, fits.locals, ?_, awaits⟩
          · intro type' typed'
            cases calleeTyped.symm.trans typed'
            exact arguments_told calleeTyped passed
          · intro known analyzed type' value typed' given
            obtain ⟨after, ⟨_, _, _, type'', _, typed'', _, describes⟩, following, _⟩ :=
              goes known analyzed
            cases typed'.symm.trans typed''
            exact (following rfl).describes (describes value given)

/-- A run after so many steps, or at its end if that comes before. -/
def advance (classes : ClassTable) : Nat → Progress → World → Progress × World
  | limit + 1, .running activations, world =>
      let (progress, world) := step classes activations world
      advance classes limit progress world
  | _, progress, world => (progress, world)

/-- Every instruction that is completed within its invocation, in the first steps of a run, passes a
check together with the invocation it leaves. -/
def stepsPass (check : Insn → Activation → Bool) (classes : ClassTable) :
    Nat → Progress → World → Bool
  | limit + 1, .running (activation :: callers), world =>
      let passes := match activation.method.code[activation.index]? with
        | none => true
        | some insn =>
            match ((Execution.execute classes insn).run activation).run world with
            | (.ok (.next, left), _) => check insn left
            | _ => true
      let (progress, world) := step classes (activation :: callers) world
      passes && stepsPass check classes limit progress world
  | _, _, _ => true

/-- The innermost invocation of a run, which is about to execute its instruction. -/
def Progress.current? : Progress → Option Activation
  | .running (activation :: _) => some activation
  | _ => none

theorem Progress.Described.current {progress : Progress} {activation : Activation}
    (described : progress.Described tells) (current : progress.current? = some activation) :
    activation.method.Checked ∧ activation.Described tells := by
  match progress with
  | .running (innermost :: callers) =>
      cases current
      exact ⟨described.1, described.2.1⟩

/-- A run to the end goes through all the states a run advances to. -/
theorem run_advance (classes : ClassTable) (steps limit : Nat) (progress : Progress)
    (world : World) :
    run classes (steps + limit) progress world =
      run classes limit (advance classes steps progress world).1
        (advance classes steps progress world).2 := by
  induction steps generalizing progress world with
  | zero => cases progress <;> simp [advance]
  | succ steps ih =>
      cases progress with
      | running activations =>
          rw [Nat.succ_add]
          exact ih _ _
      | done outcome => simp [run, advance]

theorem advance_described (telling : Telling tells) {classes : ClassTable}
    (accepted : classes.Checked) {check : Insn → Activation → Bool}
    (sufficient : ∀ insn left, check insn left = true → insn.Fetches tells left)
    (steps : Nat) {progress : Progress} {world : World} (described : progress.Described tells)
    (passes : stepsPass check classes steps progress world = true) :
    (advance classes steps progress world).1.Described tells := by
  -- From the front, as the run goes: the first step keeps the invariant, the others start from it.
  induction steps generalizing progress world with
  | zero => cases progress <;> exact described
  | succ steps ih =>
      match progress with
      | .done outcome => exact trivial
      | .running [] => exact ih trivial (by cases steps <;> rfl)
      | .running (activation :: callers) =>
          rw [stepsPass, Bool.and_eq_true] at passes
          obtain ⟨first, later⟩ := passes
          refine ih (step_described telling accepted described ?_) later
          intro insn left after there yields
          have outcome : ((Execution.execute classes insn).run activation).run world =
              (.ok (.next, left), after) := yields
          simp only [there, outcome] at first
          exact sufficient insn left first

end Machine

/-- What a field read or a method of the machine has put on the stack is of the category that the
descriptor names. -/
def Insn.fetchesDeclared (insn : Insn) (left : Activation) : Bool :=
  match insn with
  | .getField field | .getStatic field =>
      left.stack.head?.any fun value =>
        (ValueType.parse field.descriptor).toOption.bind ValueType.kind = some value.kind
  | .invoke _ method =>
      left.stack.head?.all fun value =>
        (method.type.toOption.bind fun type => type.result.kind).all fun kind => value.kind = kind
  | _ => true

theorem Insn.fetches_of_declared {insn : Insn} {left : Activation}
    (declared : insn.fetchesDeclared left = true) : insn.Fetches FrameValue.Describes left := by
  have read : ∀ field : FieldRef, (left.stack.head?.any fun value =>
        (ValueType.parse field.descriptor).toOption.bind ValueType.kind = some value.kind) = true →
      (Insn.getStatic field).Fetches FrameValue.Describes left := by
    intro field declared
    cases top : left.stack.head? with
    | none => simp [top] at declared
    | some value =>
        rw [top, Option.any_some, decide_eq_true_eq] at declared
        obtain ⟨type, parsed, kind⟩ := Option.bind_eq_some_iff.mp declared
        refine ⟨type, value.kind, Outcome.toOption_eq_some.mp parsed, kind, fun other same => ?_⟩
        cases top.symm.trans same
        exact FrameValue.describes_telling.declares rfl
  unfold fetchesDeclared at declared
  split at declared
  · exact read _ declared
  · exact read _ declared
  · rename_i method
    intro type kind value typed result top
    simp only [top, Option.all_some, typed, Except.toOption, Option.bind_some, result,
      decide_eq_true_eq] at declared
    exact FrameValue.describes_telling.declares declared
  · rename_i others
    unfold Fetches
    split <;> simp_all

/-- Arguments of the categories of the parameters are told of by the entries of the parameters. -/
theorem Machine.parameters_told (telling : Telling tells) {types : List ValueType}
    {arguments : List Value}
    (kinds : types.map ValueType.kind = arguments.map fun value => some value.kind) :
    List.Forall₂ tells (types.filterMap FrameValue.ofType?) arguments := by
  induction types generalizing arguments with
  | nil =>
      cases arguments with
      | nil => exact .nil
      | cons => cases kinds
  | cons type types ih =>
      cases arguments with
      | nil => cases kinds
      | cons value arguments =>
          simp only [List.map_cons, List.cons.injEq] at kinds
          have declared :
              FrameValue.ofType? type = some (.ofKind value.kind type.internalName) := by
            rw [FrameValue.ofType?, kinds.1]
            rfl
          rw [List.filterMap_cons_some declared]
          exact .cons (telling.declares rfl) (ih kinds.2)

/-- Whenever a run is about to execute an instruction, every analysis of the method has a frame
there, and it describes the locals and the operands; the run was started with arguments of the
categories of the parameters, and what was fetched so far is of the category declared. -/
theorem Vm.frames_describe {vm : Vm} (accepted : vm.classes.Accepted) {method : MethodRef}
    {prepared : PreparedMethod} (found : vm.staticMethod method = .ok prepared)
    {arguments : List Value}
    (kinds : prepared.parameters.map ValueType.kind = arguments.map fun value => some value.kind)
    (world : World) (steps : Nat)
    (declared : Machine.stepsPass Insn.fetchesDeclared vm.classes steps
      (Machine.enter prepared arguments []) world = true)
    {activation : Activation}
    (current : (Machine.advance vm.classes steps (Machine.enter prepared arguments [])
      world).1.current? = some activation) :
    (∃ hierarchy known, Verification.verifyMethod hierarchy activation.method.owner
        activation.method.method = .ok known) ∧
      ∀ hierarchy known, Analysis.analyze hierarchy activation.method.owner
          activation.method.method = .ok known →
        ∃ frame, known.frame? activation.index = some frame ∧
          frame.Describes FrameValue.Describes activation.locals activation.stack := by
  have checked := accepted.checked.methods prepared (staticMethod_held found)
  have begins : (Machine.enter prepared arguments []).Described FrameValue.Describes := by
    refine Machine.enter_described FrameValue.describes_telling checked ?_ trivial
    intro type typed count
    obtain ⟨type', typed', parameters⟩ := checked.typed
    cases typed.symm.trans typed'
    rw [parameters] at kinds
    have passed : Passed FrameValue.Describes false type.parameters arguments :=
      fun _ => Machine.parameters_told FrameValue.describes_telling kinds
    exact Machine.arguments_told typed passed count
  have described := Machine.advance_described FrameValue.describes_telling accepted.checked
    (fun _ _ => Insn.fetches_of_declared) steps begins declared
  obtain ⟨checked, within⟩ := described.current current
  exact ⟨checked.verified, fun hierarchy known analyzed => within known ⟨hierarchy, analyzed⟩⟩

/-- A class whose method keeps a null and calls another one with what it reads from a field. -/
def doubling : ClassFile :=
  { ClassFile.empty "Doubling" with
    fields := [⟨Access.isStatic, "seed", "I", some (.int 5)⟩]
    methods := [
      ⟨Access.isStatic, "run", "(J)I", 1, 4,
        [.constNull, .store .ref 3, .getStatic ⟨"Doubling", "seed", "I"⟩,
          .invoke .static ⟨"Doubling", "twice", "(I)I"⟩, .store .int 2, .load .int 2,
          .return (some .int)], []⟩,
      ⟨Access.isStatic, "twice", "(I)I", 2, 1,
        [.load .int 0, .load .int 0, .binary .int .add, .return (some .int)], []⟩] }

def doublingVm : Vm := (Vm.empty.loadClasses [doubling]).2

/-- After eight steps the result of the other method is on the stack. -/
theorem Vm.frames_describe_doubling :
    ∃ activation : Activation, activation.index = 4 ∧ activation.stack = [.int 10] ∧
      ∃ hierarchy known frame, Analysis.analyze hierarchy activation.method.owner
          activation.method.method = .ok known ∧ known.frame? 4 = some frame ∧
        frame.Describes FrameValue.Describes activation.locals activation.stack := by
  have checks : ((doublingVm.staticMethod ⟨"Doubling", "run", "(J)I"⟩).toOption.any
      fun prepared =>
        let start := Machine.enter prepared [.long 1] []
        let world := doublingVm.world none
        prepared.parameters.map ValueType.kind = [some .long] ∧
        Machine.stepsPass Insn.fetchesDeclared doublingVm.classes 8 start world ∧
        (Machine.advance doublingVm.classes 8 start world).1.current?.any fun activation =>
          activation.index = 4 ∧ activation.stack = [.int 10]) = true := by
    decide +kernel
  simp only [Option.any_eq_true, decide_eq_true_eq] at checks
  obtain ⟨prepared, there, kinds, declared, activation, current, index, stack⟩ := checks
  have found := Outcome.toOption_eq_some.mp there
  have same : prepared.parameters.map ValueType.kind =
      [Value.long 1].map fun value => some value.kind := kinds
  have accepted : doublingVm.classes.Accepted := loadClasses_accepted .empty [doubling]
  obtain ⟨⟨hierarchy, known, verified⟩, describes⟩ :=
    Vm.frames_describe accepted found same (doublingVm.world none) 8 declared current
  have analyzed := Verification.verifyMethod_analyze verified
  obtain ⟨frame, here, described⟩ := describes hierarchy known analyzed
  exact ⟨activation, index, stack, hierarchy, known, frame, analyzed, index ▸ here, described⟩

end StackCoroutine
