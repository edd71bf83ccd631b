import StackCoroutine.Instrument.PointCode
import StackCoroutine.Proofs.Machine.Hosting
import StackCoroutine.Proofs.Machine.ProtocolCalls
import StackCoroutine.Proofs.Object.Execution

/-!
The code that hands a saved frame over to the context. It makes an object, gives the constructor of
saved frames the class, the method and the point, and pushes what has become of the object. So before
its last instruction the object on top is a saved frame of the point, if it is a saved frame at all.
-/

namespace StackCoroutine

/-- The frame belongs to the method of the plan and stopped at the point. -/
def SavedFrame.IsOf {V : Type} (plan : MethodPlan) (point : Point) (frame : SavedFrame V) : Prop :=
  frame.className = plan.owner ∧ frame.methodId = plan.methodId ∧ frame.point = point.code

namespace Heap

variable {earlier later : Heap} {object : ObjectRef}

/-- The object is there and is no saved frame. -/
def Blank (heap : Heap) (object : ObjectRef) : Prop :=
  ∃ held, heap.get object = .ok held ∧ ∀ frame position, held ≠ .savedFrame frame position

/-- Where no saved frames are made of objects, one that is none stays so. -/
theorem Blank.follow (blank : earlier.Blank object) (follows : earlier.Follows False later) :
    later.Blank object := by
  obtain ⟨held, found, other⟩ := blank
  obtain ⟨now, found', becomes⟩ := follows.get found
  refine ⟨now, found', ?_⟩
  rintro frame position rfl
  rcases becomes with never | same
  · exact never
  · exact other frame position same

theorem savedFrame_eq_ok {heap : Heap} {frame : SavedFrame Value} :
    heap.savedFrame object = .ok frame ↔
      ∃ position, heap.get object = .ok (.savedFrame frame position) := by
  unfold savedFrame
  cases heap.get object with
  | error fault => simp [bind, Except.bind]
  | ok held => cases held <;> simp [bind, Except.bind, pure, Except.pure, throw, throwThe,
      MonadExceptOf.throw]

/-- The object of a constant is in the table once the constant has been made. -/
theorem mem_intern (heap : Heap) (text : String) :
    (text, (heap.intern text).1) ∈ (heap.intern text).2.interned := by
  cases listed : heap.interned.lookup text with
  | some object =>
      rw [intern_old listed]
      exact Outcome.lookup_mem listed
  | none =>
      rw [intern_new listed]
      exact List.mem_append_right _ List.mem_cons_self

theorem blank_alloc {className : String} {fields : Slots}
    (bounded : (earlier.alloc (.instance className fields)).2.size ≤ 2 ^ 32) :
    (earlier.alloc (.instance className fields)).2.Blank
      (earlier.alloc (.instance className fields)).1 := by
  have roomy : earlier.Roomy 1 := by simpa [Roomy, size, Heap.alloc] using bounded
  exact ⟨_, get_alloc roomy, by simp⟩

end Heap

/-! ### Calls of the protocol -/

/-- Where no other method of the machine has name and descriptor, a call can reach no other. -/
theorem Native.find?_alone {ancestor : String} {method : MethodRef} {native only : Native}
    (alone : ∀ entry ∈ bindings, entry.1.name = method.name →
      entry.1.descriptor = method.descriptor → entry.2 = only)
    (found : find? ⟨ancestor, method.name, method.descriptor⟩ = some native) : native = only :=
  alone _ (Outcome.lookup_mem found) rfl rfl

/-- If some call runs the constructor that the machine provides, generated code does. -/
theorem ClassTable.Constructs.resolve? {classes : ClassTable} (constructs : classes.Constructs) :
    classes.resolve? Protocol.savedFrameInit.owner Protocol.savedFrameInit.name
      Protocol.savedFrameInit.descriptor = some (.native .savedFrameInit) := by
  obtain ⟨start, name, descriptor, found⟩ := constructs
  obtain ⟨ancestor, _, chosen⟩ := List.exists_of_findSome?_eq_some found
  have only : ∀ entry ∈ Native.bindings, entry.2 = .savedFrameInit →
      entry.1 = Protocol.savedFrameInit := by decide
  cases here : (classes.find? ancestor).bind fun loaded => loaded.method? name descriptor with
  | some method => simp [here] at chosen
  | none =>
      simp only [here, Option.map_eq_some_iff, Target.native.injEq, exists_eq_right] at chosen
      -- The constructor has been found in its own class, which is where generated code begins.
      cases only _ (Outcome.lookup_mem chosen) rfl
      obtain ⟨rest, split⟩ := Hosts.ancestry_cons classes Protocol.savedFrameInit.owner
      unfold ClassTable.resolve?
      rw [split, List.findSome?_cons]
      have unshadowed : ((classes.find? Protocol.savedFrameInit.owner).bind fun loaded =>
          loaded.method? Protocol.savedFrameInit.name Protocol.savedFrameInit.descriptor) = none := here
      rw [unshadowed]
      rfl

namespace Execution

variable {classes : ClassTable} {activation left : Activation} {world later : World} {flow : Flow}

theorem load_inv {kind : Kind} {slot : UInt16}
    (yields : Yields (execute classes (.load kind slot)) activation world flow left later) :
    flow = .next ∧ ∃ value, left = { activation with stack := value :: activation.stack } := by
  obtain ⟨value, _, _, read, checking⟩ := yields.bind_inv
  obtain ⟨_, rfl⟩ := read.readLocal_inv
  obtain ⟨same, _, _, checked, pushing⟩ := checking.bind_inv
  obtain ⟨rfl, _⟩ := checked.lift_inv
  cases pushing
  exact ⟨rfl, same, rfl⟩

/-- A new object is an instance of the class. -/
theorem new_inv {className : String}
    (yields : Yields (execute classes (.new className)) activation world flow left later) :
    flow = .next ∧ ∃ fields, left = { activation with
        stack := .ref (world.heap.alloc (.instance className fields)).1 :: activation.stack } ∧
      later.heap = (world.heap.alloc (.instance className fields)).2 := by
  dsimp only [execute] at yields
  split at yields
  · obtain ⟨_, _, _, failed, _⟩ := yields.bind_inv
    exact failed.lift_inv.2.fail_never.elim
  · obtain ⟨fields, _, _, initial, allocating⟩ := yields.bind_inv
    obtain ⟨rfl, gives⟩ := initial.lift_inv
    cases filled : initialFields classes className with
    | error cause =>
        rw [filled] at gives
        cases gives
    | ok slots =>
        rw [filled] at gives
        cases gives
        cases allocating
        exact ⟨rfl, _, rfl, rfl⟩

theorem popMany_world {count : Nat} {values : List Value}
    (yields : Yields (popMany count) activation world values left later) : later = world := by
  unfold popMany at yields
  obtain ⟨_, _, _, got, taking⟩ := yields.bind_inv
  obtain ⟨rfl, rfl, rfl⟩ := got.get_inv
  split at taking
  · exact taking.lift_inv.2.fail_never.elim
  · cases taking
    rfl

theorem dispatchStart_world {dispatch : Dispatch} {method : MethodRef} {arguments : List Value}
    {start : String} (gives : Exec.Gives (dispatchStart dispatch method arguments) world start later) :
    later = world := by
  have pure : ∀ {name : String}, Exec.Gives (Pure.pure name) world start later → later = world := by
    rintro name given
    cases given
    rfl
  have classOf : ∀ value, Exec.Gives (classOf value) world start later → later = world := by
    intro value given
    cases value with
    | ref object => exact given.reading_inv.2
    | context => exact pure given
    | _ => exact given.fail_never.elim
  unfold dispatchStart at gives
  split at gives
  · exact pure gives
  · exact gives.raise_never.elim
  · exact pure gives
  · exact classOf _ gives
  · exact pure gives

/-- What a completed call has done: it has taken its arguments, found its target, and either leaves
the code of the target to be run or has run a method of the machine. -/
theorem invoke_inv {dispatch : Dispatch} {method : MethodRef} {type : MethodType}
    (typed : method.type = .ok type)
    (yields : Yields (execute classes (.invoke dispatch method)) activation world flow left later) :
    ∃ arguments start middle,
      arguments.length = type.parameters.length + (if dispatch.hasReceiver then 1 else 0) ∧
      activation.stack = arguments.reverse ++ middle.stack ∧
      Exec.Gives (dispatchStart dispatch method arguments) world start world ∧
      ((∃ target, classes.resolve? start method.name method.descriptor = some (.code target) ∧
          flow = .call target arguments ∧ left = middle ∧ later = world) ∨
        ∃ native value,
          classes.resolve? start method.name method.descriptor = some (.native native) ∧
          Exec.Gives (native.call arguments) world value later ∧ flow = .next ∧
          left = { middle with stack := value.toList ++ middle.stack }) := by
  obtain ⟨_, _, _, parsing, popping⟩ := yields.bind_inv
  obtain ⟨rfl, parsed⟩ := parsing.lift_inv
  rw [typed] at parsed
  cases parsed
  obtain ⟨arguments, middle, _, popped, starting⟩ := popping.bind_inv
  obtain ⟨counted, rfl⟩ := popped.popMany_inv
  cases popMany_world popped
  obtain ⟨start, _, _, dispatched, calling⟩ := starting.bind_inv
  obtain ⟨rfl, started⟩ := dispatched.lift_inv
  cases dispatchStart_world started
  refine ⟨arguments, start, _, counted, rfl, started, ?_⟩
  split at calling
  · rename_i target found
    cases calling
    exact Or.inl ⟨target, found, rfl, rfl, rfl⟩
  · rename_i native found
    obtain ⟨value, _, _, running, pushing⟩ := calling.bind_inv
    obtain ⟨rfl, given⟩ := running.lift_inv
    refine Or.inr ⟨native, value, found, ?_⟩
    cases value <;> cases pushing <;> exact ⟨given, rfl, rfl⟩
  · exact calling.lift_inv.2.fail_never.elim

end Execution

namespace MethodPlan

variable {plan : MethodPlan} {point : Point} {heap earlier later : Heap} {object : ObjectRef}
  {arguments rest : List Value}

/-- What the constructor is given in that place: the text of the class, method and point. -/
def Argument (plan : MethodPlan) (point : Point) (heap : Heap) : Nat → Value → Prop
  | 0, value => ∃ text, value = .ref text ∧ (plan.owner, text) ∈ heap.interned
  | 1, value => value = .int plan.methodId
  | 2, value => value = .int point.code
  | _, _ => True

/-- The first arguments of the constructor. -/
def Arguments (plan : MethodPlan) (point : Point) (heap : Heap) (arguments : List Value) : Prop :=
  ∀ place value, arguments[place]? = some value → plan.Argument point heap place value

/-- What the operands are before each instruction of the code that hands over a saved frame. -/
inductive Pushing (plan : MethodPlan) (point : Point) (heap : Heap) : Nat → List Value → Prop where
  | beginning {stack : List Value} : Pushing plan point heap 0 stack
  | context {stack : List Value} : Pushing plan point heap 1 stack
  | created {object : ObjectRef} {rest : List Value} : heap.Blank object →
      Pushing plan point heap 2 (.ref object :: rest)
  | passing {object : ObjectRef} {arguments rest : List Value} : heap.Blank object →
      plan.Arguments point heap arguments → arguments.length ≤ 5 →
      Pushing plan point heap (3 + arguments.length)
        (arguments.reverse ++ .ref object :: .ref object :: rest)
  | made {object : ObjectRef} {rest : List Value} :
      (∀ frame position, heap.get object = .ok (.savedFrame frame position) →
        frame.IsOf plan point) → Pushing plan point heap 9 (.ref object :: rest)

theorem Arguments.follow (told : plan.Arguments point earlier arguments)
    (follows : earlier.Follows False later) : plan.Arguments point later arguments := by
  intro place value given
  have was := told place value given
  match place with
  | 0 =>
      obtain ⟨text, rfl, listed⟩ := was
      obtain ⟨added, now, _⟩ := follows.constants
      exact ⟨text, rfl, now ▸ List.mem_append_left added listed⟩
  | 1 | 2 | _ + 3 => exact was

/-- All arguments of the constructor. -/
theorem Arguments.all (told : plan.Arguments point heap arguments) (count : arguments.length = 5) :
    ∃ text data lockState, arguments =
        [.ref text, .int plan.methodId, .int point.code, data, lockState] ∧
      (plan.owner, text) ∈ heap.interned := by
  match arguments, count with
  | [name, id, number, data, lockState], _ =>
      obtain ⟨text, rfl, listed⟩ := told 0 name rfl
      cases (told 1 id rfl : id = .int plan.methodId)
      cases (told 2 number rfl : number = .int point.code)
      exact ⟨text, data, lockState, rfl, listed⟩

/-- One more argument is on the stack. -/
theorem Pushing.pass {value : Value} (blank : heap.Blank object)
    (told : plan.Arguments point heap arguments)
    (next : plan.Argument point heap arguments.length value) (few : arguments.length < 5) :
    plan.Pushing point heap (3 + arguments.length + 1)
      (value :: (arguments.reverse ++ .ref object :: .ref object :: rest)) := by
  have told' : plan.Arguments point heap (arguments ++ [value]) := by
    intro place other given
    rcases Nat.lt_trichotomy place arguments.length with before | rfl | beyond
    · rw [List.getElem?_append_left before] at given
      exact told place other given
    · simp only [List.getElem?_concat_length, Option.some.injEq] at given
      exact given ▸ next
    · rw [List.getElem?_eq_none (by simp; omega)] at given
      cases given
  have pushed : plan.Pushing point heap (3 + (arguments ++ [value]).length)
      ((arguments ++ [value]).reverse ++ .ref object :: .ref object :: rest) :=
    .passing blank told' (by simp; omega)
  simpa [Nat.add_assoc] using pushed

/-! ### The constructor -/

theorem savedFrameInit_type : ∃ type, Protocol.savedFrameInit.type = .ok type ∧
    type.parameters.length = 5 ∧ type.result.kind = none := by
  refine ⟨⟨[.object Names.text, .int, .int, .array (.object Names.object),
    .object Protocol.lockStateClass], .void⟩, ?_, rfl, rfl⟩
  decide +kernel

/-- The constructor reads the class from the text constant it is given. -/
theorem savedFrameInit_makes {world after : World} {text : ObjectRef} {methodId number : Int32}
    {data lockState : Value} {owner : String} {value : Option Value}
    (blank : world.heap.Blank object) (bounded : world.heap.size ≤ 2 ^ 32)
    (reads : world.heap.Reads (owner, text))
    (gives : Exec.Gives (Native.savedFrameInit.call
      [.ref object, .ref text, .int methodId, .int number, data, lockState]) world value after) :
    value = none ∧ ∃ frame : SavedFrame Value,
      (frame.className = owner ∧ frame.methodId = methodId ∧ frame.point = number) ∧
      after.heap.get object = .ok (.savedFrame frame none) := by
  obtain ⟨held, found, _⟩ := blank
  obtain ⟨_, _, initialised, _⟩ := gives.bind_inv
  obtain ⟨_, _, receiver, initialised⟩ := initialised.bind_inv
  cases receiver
  obtain ⟨_, _, present, initialised⟩ := initialised.bind_inv
  cases present
  obtain ⟨_, _, first, initialised⟩ := initialised.bind_inv
  cases first
  obtain ⟨_, _, given, initialised⟩ := initialised.bind_inv
  cases given
  obtain ⟨className, _, reading, _⟩ := initialised.bind_inv
  obtain ⟨named, _⟩ := reading.reading_inv
  -- What is no text cannot be read as one, so the text is that of the constant.
  have same : className = owner := by
    obtain ⟨content, there, was⟩ := reads bounded
    unfold Heap.text at named
    rw [there] at named
    rcases was with rfl | state
    · cases named
      rfl
    · cases content with
      | text other => cases state
      | _ => cases named
  subst same
  have made : Exec.Gives (Native.savedFrameInit.call
      [.ref object, .ref text, .int methodId, .int number, data, lockState]) world none
      { world with heap := world.heap.update object fun _ =>
          .savedFrame ⟨className, methodId, number, data, Native.present lockState⟩ none } :=
    (Does.initSavedFrame found named).bind (Exec.Gives.pure none)
  cases made.symm.trans gives
  exact ⟨rfl, _, ⟨rfl, rfl, rfl⟩, Heap.get_update found _⟩

/-- The constructor is the first method the code calls. -/
theorem pushSavedFrame_quiet {insn : Insn} {place : Nat} (early : place < 8)
    (there : (plan.pushSavedFrame point)[place]? = some insn) (dispatch : Dispatch)
    (target : MethodRef) : insn ≠ .invoke dispatch target := by
  have before : insn ∈ (plan.pushSavedFrame point).take 8 :=
    List.mem_of_getElem? (List.getElem?_take_of_lt early ▸ there)
  rintro rfl
  cases tracked : plan.layout.locks <;> simp [pushSavedFrame, tracked, Variable.load] at before

/-- In the place of the argument that is next, the code gives the constructor that argument. -/
theorem Pushing.argument {classes : ClassTable} {activation left : Activation} {world after : World}
    {flow : Flow} {insn : Insn} {count : Nat} (few : count < 5)
    (there : (plan.pushSavedFrame point)[3 + count]? = some insn)
    (yields : Execution.Yields (Execution.execute classes insn) activation world flow left after) :
    flow = .next ∧ ∃ value, left.stack = value :: activation.stack ∧
      plan.Argument point after.heap count value := by
  have load : ∀ slot : Variable, insn = slot.load → 3 ≤ count →
      flow = .next ∧ ∃ value, left.stack = value :: activation.stack ∧
        plan.Argument point after.heap count value := by
    rintro slot rfl late
    obtain ⟨rfl, value, rfl⟩ := Execution.load_inv yields
    refine ⟨rfl, value, rfl, ?_⟩
    match count, late with
    | _ + 3, _ => exact trivial
  match count, few with
  | 0, _ =>
      cases there
      cases yields
      exact ⟨rfl, _, rfl, _, rfl, world.heap.mem_intern plan.owner⟩
  | 1, _ | 2, _ =>
      cases there
      cases yields
      exact ⟨rfl, _, rfl, rfl⟩
  | 3, _ => exact load plan.layout.container (Option.some.inj there).symm (Nat.le_refl _)
  | 4, _ =>
      cases tracked : plan.layout.locks with
      | some locks =>
          refine load locks.state ?_ (by decide)
          simpa [pushSavedFrame, tracked] using there.symm
      | none =>
          have null : insn = .constNull := by simpa [pushSavedFrame, tracked] using there.symm
          subst null
          cases yields
          exact ⟨rfl, _, rfl, trivial⟩

/-- The constructor has been called: it is one that the machine provides and has made a saved frame
of the object, or it is the code of a class that takes its place, and no saved frame is ever made of
an object. -/
theorem Pushing.construct {classes : ClassTable} {activation left : Activation}
    {world after : World} {flow : Flow} (blank : world.heap.Blank object)
    (told : plan.Arguments point world.heap arguments) (count : arguments.length = 5)
    (whole : activation.stack = arguments.reverse ++ .ref object :: .ref object :: rest)
    (bounded : world.heap.size ≤ 2 ^ 32)
    (reads : ∀ entry ∈ world.heap.interned, world.heap.Reads entry)
    (yields : Execution.Yields
      (Execution.execute classes (callSpecial Protocol.savedFrameInit)) activation world flow left after) :
    left.stack = .ref object :: rest ∧
      ((flow = .next ∧ plan.Pushing point after.heap 9 left.stack) ∨
        ¬classes.Constructs ∧ after = world ∧ ∃ target values, flow = .call target values ∧
          target.method.descriptor = Protocol.savedFrameInit.descriptor) := by
  obtain ⟨type, typed, parameters, _⟩ := savedFrameInit_type
  obtain ⟨values, start, middle, counted, taken, started, done⟩ :=
    Execution.invoke_inv typed yields
  -- The operands taken are the arguments on top of the one object, and the other one is left.
  obtain ⟨passed, kept⟩ : arguments.reverse ++ [.ref object] = values.reverse ∧
      .ref object :: rest = middle.stack := by
    apply List.append_inj
    · rw [← taken, whole, List.append_assoc, List.singleton_append]
    · simp [counted, parameters, count, Dispatch.hasReceiver]
  have given : values = .ref object :: arguments := by
    rw [← List.reverse_inj, ← passed, List.reverse_cons]
  subst given
  have begins : start = Protocol.savedFrameInit.owner := by
    have started' : (Except.ok start, world) = (Except.ok Protocol.savedFrameInit.owner, world) :=
      started.symm
    exact Except.ok.inj (congrArg Prod.fst started')
  subst begins
  rcases done with ⟨target, found, rfl, rfl, rfl⟩ | ⟨native, value, found, gives, rfl, rfl⟩
  · refine ⟨kept.symm, Or.inr ⟨?_, rfl, target, _, rfl, (ClassTable.resolve?_code found).2⟩⟩
    intro constructs
    cases found.symm.trans constructs.resolve?
  · obtain ⟨ancestor, bound⟩ := ClassTable.resolve?_native found
    have alone : ∀ entry ∈ Native.bindings, entry.1.name = Protocol.savedFrameInit.name →
        entry.1.descriptor = Protocol.savedFrameInit.descriptor → entry.2 = .savedFrameInit := by
      decide +kernel
    have provided : native = .savedFrameInit := Native.find?_alone alone bound
    subst provided
    obtain ⟨text, data, lockState, rfl, listed⟩ := told.all count
    obtain ⟨rfl, frame, isOf, made⟩ := savedFrameInit_makes blank bounded (reads _ listed) gives
    refine ⟨kept.symm, Or.inl ⟨rfl, ?_⟩⟩
    show plan.Pushing point after.heap 9 middle.stack
    rw [← kept]
    refine .made fun other position found => ?_
    cases made.symm.trans found
    exact isOf

/-- One instruction of the code that hands over a saved frame, the last apart, takes the operands to
those before the next one; or it calls a constructor that takes the place of the machine's. -/
theorem Pushing.step {classes : ClassTable} {activation left : Activation} {world after : World}
    {flow : Flow} {insn : Insn} {place : Nat} (early : place < 9)
    (pushing : plan.Pushing point world.heap place activation.stack)
    (there : (plan.pushSavedFrame point)[place]? = some insn)
    (bounded : after.heap.size ≤ 2 ^ 32)
    (reads : ∀ entry ∈ world.heap.interned, world.heap.Reads entry)
    (yields : Execution.Yields (Execution.execute classes insn) activation world flow left after) :
    (flow = .next ∧ plan.Pushing point after.heap (place + 1) left.stack) ∨
      place = 8 ∧ ¬classes.Constructs ∧ ∃ object rest, left.stack = .ref object :: rest ∧
        after.heap.Blank object ∧ ∃ target values, flow = .call target values ∧
          target.method.descriptor = Protocol.savedFrameInit.descriptor := by
  have follows : ∀ {constructs : Prop}, (∀ dispatch target,
      insn = .invoke dispatch target → classes.Constructs → constructs) →
        world.heap.Follows constructs after.heap := by
    intro constructs constructing
    have advanced := Execution.execute_advances insn constructing activation world
    have ran : ((Execution.execute classes insn).run activation).run world =
      (.ok (flow, left), after) := yields
    rwa [ran] at advanced
  -- The place in the code decides what lies on the stack, and so which instruction is next.
  generalize held : activation.stack = stack at pushing
  cases pushing with
  | beginning =>
      cases there
      obtain ⟨rfl, _⟩ := Execution.load_inv yields
      exact Or.inl ⟨rfl, .context⟩
  | context =>
      cases there
      obtain ⟨rfl, fields, rfl, made⟩ := Execution.new_inv yields
      refine Or.inl ⟨rfl, .created ?_⟩
      rw [made] at bounded ⊢
      exact Heap.blank_alloc bounded
  | created blank =>
      cases there
      obtain ⟨method, index, locals, _⟩ := activation
      cases held
      cases yields
      have none : plan.Arguments point world.heap [] := nofun
      exact Or.inl ⟨rfl, .passing blank none (Nat.zero_le _)⟩
  | @passing object arguments rest blank told few =>
      rcases Nat.lt_or_eq_of_le few with fewer | all
      · obtain ⟨rfl, value, pushed, next⟩ := Pushing.argument fewer there yields
        have follows : world.heap.Follows False after.heap := by
          refine follows fun dispatch target call => ?_
          exact absurd call (pushSavedFrame_quiet (by omega) there dispatch target)
        rw [pushed, held]
        exact Or.inl ⟨rfl, .pass (blank.follow follows) (told.follow follows) next fewer⟩
      · rw [all] at there ⊢
        cases there
        have within := Nat.le_trans (follows fun _ _ _ => id).grown bounded
        obtain ⟨kept, ⟨rfl, made⟩ | ⟨missing, rfl, target, values, called, same⟩⟩ :=
          Pushing.construct blank told all held within reads yields
        · exact Or.inl ⟨rfl, made⟩
        · exact Or.inr ⟨rfl, missing, object, rest, kept, blank, target, values, called, same⟩
  | made isOf => omega

end MethodPlan

/-! ### The last instruction -/

namespace Exec

variable {α β : Type}

/-- Whatever the action comes to, it leaves the context as it is. -/
def Detached (action : Exec α) : Prop :=
  ∀ world : World, (action.run world).2.context = world.context

/-- If the action comes to no value, it leaves the context as it is. -/
def Careful (action : Exec α) : Prop :=
  ∀ world : World, (∃ value after, Gives action world value after) ∨
    (action.run world).2.context = world.context

namespace Detached

theorem pure (value : α) : Detached (Pure.pure value : Exec α) := fun _ => rfl

theorem fail (cause : MachineError) : Detached (Exec.fail cause : Exec α) := fun _ => rfl

theorem raise (className text : String) : Detached (Exec.raise className text : Exec α) :=
  fun _ => rfl

theorem ofMachine (result : Except MachineError α) : Detached (Exec.ofMachine result) := by
  cases result with
  | ok value => exact pure value
  | error cause => exact fail cause

theorem reading (read : Heap → Except TypeFault α) : Detached (Exec.reading read) :=
  fun world => ofMachine ((read world.heap).mapError .type) world

theorem nonNull (value : Value) (action : String) : Detached (Exec.nonNull value action) := by
  cases value <;> first | exact pure _ | exact fail _ | exact raise _ _

theorem context : Detached Exec.context := by
  rintro ⟨heap, statics, monitors, output, _ | current⟩ <;> rfl

theorem argument (native : Native) (arguments : List Value) (index : Nat) :
    Detached (native.argument arguments index) := by
  unfold Native.argument
  split
  · exact pure _
  · exact fail _

theorem expectContext (value : Value) : Detached (Native.expectContext value) := by
  cases value <;> first | exact pure _ | exact fail _

theorem classOf (value : Value) : Detached (Execution.classOf value) := by
  cases value <;> first | exact reading _ | exact pure _ | exact fail _

theorem dispatchStart (dispatch : Dispatch) (method : MethodRef) (arguments : List Value) :
    Detached (Execution.dispatchStart dispatch method arguments) := by
  unfold Execution.dispatchStart
  split
  · exact pure _
  · exact raise _ _
  · exact pure _
  · exact classOf _
  · exact pure _

end Detached

namespace Careful

theorem bind {action : Exec α} {next : α → Exec β} (first : Detached action)
    (later : ∀ value, Careful (next value)) : Careful (action >>= next) := by
  intro world
  have step : (action >>= next).run world =
      ExceptT.bindCont next (action.run world).1 (action.run world).2 := rfl
  have same := first world
  rw [step]
  rcases ran : action.run world with ⟨cause | value, middle⟩
  · rw [ran] at same
    exact Or.inr same
  · rw [ran] at same
    rcases later value middle with ⟨last, after, gives⟩ | kept
    · exact Or.inl ⟨last, after, Gives.bind ran gives⟩
    · exact Or.inr (kept.trans same)

/-- What is certain to come to a value can follow. -/
theorem andThen {action : Exec α} {next : α → Exec β} (first : Careful action)
    (later : ∀ value world, ∃ last after, Gives (next value) world last after) :
    Careful (action >>= next) := by
  intro world
  rcases ran : action.run world with ⟨cause | value, middle⟩
  · rcases first world with ⟨value, after, gives⟩ | kept
    · cases gives.symm.trans ran
    · right
      have failed : ((action >>= next).run world) = (.error cause, middle) := by
        show ExceptT.bindCont next (action.run world).1 (action.run world).2 = _
        rw [ran]
        rfl
      rw [failed, ← kept, ran]
  · obtain ⟨last, after, gives⟩ := later value middle
    exact Or.inl ⟨last, after, Gives.bind ran gives⟩

theorem sure {action : Exec α} (gives : ∀ world, ∃ value after, Gives action world value after) :
    Careful action := fun world => Or.inl (gives world)

theorem detached {action : Exec α} (kept : Detached action) : Careful action :=
  fun world => Or.inr (kept world)

/-- The context is changed last. -/
theorem pushNew (arguments : List Value) : Careful (Native.pushNew.call arguments) := by
  refine bind (.argument _ _ _) fun receiver => bind (.expectContext _) fun _ => ?_
  refine bind (.argument _ _ _) fun value => bind (.nonNull _ _) fun object => ?_
  refine bind (.reading _) fun frame => bind .context fun current => sure fun world => ?_
  exact ⟨_, _, rfl⟩

end Careful

end Exec

theorem Native.pushNew_only {ancestor : String} {native : Native} (found : Native.find?
    ⟨ancestor, Protocol.pushNew.name, Protocol.pushNew.descriptor⟩ = some native) :
    native = .pushNew := by
  have alone : ∀ entry ∈ bindings, entry.1.name = Protocol.pushNew.name →
      entry.1.descriptor = Protocol.pushNew.descriptor → entry.2 = .pushNew := by
    decide +kernel
  exact find?_alone alone found

/-- A saved frame is pushed, if its object is one. -/
theorem Native.pushNew_gives {receiver : Value} {object : ObjectRef} {world after : World}
    {value : Option Value}
    (gives : Exec.Gives (Native.pushNew.call [receiver, .ref object]) world value after) :
    ∃ current frame position, world.context = some current ∧
      world.heap.get object = .ok (.savedFrame frame position) ∧
      after.context = some (current.push frame) := by
  obtain ⟨_, _, first, expecting⟩ := gives.bind_inv
  cases first
  obtain ⟨_, _, expected, passing⟩ := expecting.bind_inv
  have context : receiver = .context := by
    cases receiver <;> first | rfl | exact expected.fail_never.elim
  subst context
  cases expected
  obtain ⟨_, _, second, taking⟩ := passing.bind_inv
  cases second
  obtain ⟨_, _, present, reading⟩ := taking.bind_inv
  cases present
  obtain ⟨frame, _, read, pushing⟩ := reading.bind_inv
  obtain ⟨held, rfl⟩ := read.reading_inv
  obtain ⟨position, found⟩ := Heap.savedFrame_eq_ok.mp held
  obtain ⟨current, _, attached, setting⟩ := pushing.bind_inv
  obtain ⟨runs, rfl⟩ := attached.context_inv
  cases setting
  exact ⟨current, frame, position, runs, found, rfl⟩

namespace Execution

variable {classes : ClassTable} {activation : Activation} {α β : Type}

theorem careful_bind {action : Exec α} {next : α → Execution β} (first : Exec.Detached action)
    (later : ∀ value, Exec.Careful ((next value).run activation)) :
    Exec.Careful ((liftM action >>= next).run activation) := by
  rw [run_lift_bind]
  exact .bind first later

theorem careful_popMany {count : Nat} {next : List Value → Execution β}
    (later : ∀ values activation, Exec.Careful ((next values).run activation)) :
    Exec.Careful ((popMany count >>= next).run activation) := by
  cases cut : Decoder.splitFront? count activation.stack with
  | none =>
      have ran : (popMany count >>= next).run activation = Exec.fail .stackUnderflow := by
        simp [popMany, cut, Exec.fail]
      rw [ran]
      exact .detached (.fail _)
  | some parts =>
      have ran : (popMany count >>= next).run activation =
          (next parts.1.reverse).run { activation with stack := parts.2 } := by
        simp [popMany, cut]
      rw [ran]
      exact later _ _

/-- The last instruction leaves the context as it is unless it is completed. -/
theorem pushNew_careful (classes : ClassTable) (activation : Activation) :
    Exec.Careful ((execute classes (callVirtual Protocol.pushNew)).run activation) := by
  refine careful_bind (.ofMachine _) fun type => careful_popMany fun arguments activation => ?_
  refine careful_bind (.dispatchStart _ _ _) fun start => ?_
  split
  · exact .sure fun world => ⟨_, _, rfl⟩
  · rename_i native found
    obtain ⟨ancestor, bound⟩ := ClassTable.resolve?_native found
    cases Native.pushNew_only bound
    rw [run_lift_bind]
    refine .andThen (.pushNew arguments) fun value world => ?_
    cases value <;> exact ⟨_, _, rfl⟩
  · exact .detached fun _ => rfl

end Execution

/-- The last instruction of the code leaves the context as it is or pushes a saved frame of the
point. -/
theorem MethodPlan.Pushing.push {plan : MethodPlan} {point : Point} {activation : Activation}
    {world : World} (pushing : plan.Pushing point world.heap 9 activation.stack)
    (there : activation.method.code[activation.index]? = some (callVirtual Protocol.pushNew))
    (classes : ClassTable) (callers : List Activation) :
    let later := (Machine.step classes (activation :: callers) world).2
    later.context = world.context ∨ ∃ current frame, world.context = some current ∧
      later.context = some (current.push frame) ∧ frame.IsOf plan point := by
  intro later
  have left : later = (((Execution.execute classes (callVirtual Protocol.pushNew)).run
      activation).run world).2 := Machine.step_world there world
  rw [left]
  rcases Execution.pushNew_careful classes activation world with ⟨⟨flow, after⟩, last, gives⟩ | kept
  · have ran : ((Execution.execute classes (callVirtual Protocol.pushNew)).run activation).run world =
        (.ok (flow, after), last) := gives
    rw [ran]
    obtain ⟨type, typed, parameters⟩ : ∃ type, Protocol.pushNew.type = .ok type ∧
        type.parameters.length = 1 := ⟨⟨[.object Protocol.savedFrameClass], .void⟩, by decide +kernel, rfl⟩
    obtain ⟨arguments, start, middle, counted, taken, _, done⟩ := Execution.invoke_inv typed gives
    rcases done with ⟨target, _, _, _, rfl⟩ | ⟨native, value, found, called, _, _⟩
    · exact Or.inl rfl
    · right
      obtain ⟨ancestor, bound⟩ := ClassTable.resolve?_native found
      cases Native.pushNew_only bound
      generalize held : activation.stack = stack at pushing taken
      generalize nine : 9 = place at pushing
      cases pushing with
      | made isOf =>
          match arguments, (show arguments.length = 2 by simp [counted, parameters, Dispatch.hasReceiver]) with
          | [receiver, pushed], _ =>
              cases taken
              obtain ⟨current, frame, position, runs, content, changed⟩ := Native.pushNew_gives called
              exact ⟨current, frame, runs, changed, isOf frame position content⟩
      | passing _ _ few => omega
      | _ => cases nine
  · exact Or.inl kept

end StackCoroutine
