import StackCoroutine.Proofs.Reference.Natives
import StackCoroutine.Proofs.Bytes.Reading

/-!
Instructions leave no reference without its object. What an invocation holds refers to objects of
the heap before an instruction; so does what it holds after it, and what it hands to the caller or to
the method it calls, to objects of the heap that is left.
-/

namespace StackCoroutine

namespace Execution

open Exec

/-- In an invocation that refers to objects of a heap of that size, the action leaves no reference
without its object. -/
def Sound (size : Nat) (action : Execution Flow) : Prop :=
  ∀ activation : Activation, Within size activation.references →
    Exec.Sound size (fun outcome => outcome.1.references ++ outcome.2.references)
      (action.run activation)

theorem run_lift_bind {α β : Type} (action : Exec α) (next : α → Execution β)
    (activation : Activation) :
    (liftM action >>= next).run activation =
      action >>= fun value => (next value).run activation := by
  simp

namespace Sound

variable {α : Type} {size : Nat}

theorem pure {flow : Flow} (within : Within size flow.references) :
    Sound size (Pure.pure flow) :=
  fun _ held => Leads.pure (within_append.mpr ⟨within, held⟩)

/-- An action on the world that makes no objects, and what follows for its results. -/
theorem steady {refs : α → List ObjectRef} {action : Exec α} {next : α → Execution Flow}
    (first : Steady size refs action)
    (later : ∀ value, Within size (refs value) → Sound size (next value)) :
    Sound size (liftM action >>= next) := by
  intro activation held
  rw [run_lift_bind]
  exact Steady.bind first fun value within => later value within activation held

theorem andThen {action : Exec α} {next : α → Execution Flow}
    (first : Steady size noReferences action) (later : ∀ value, Sound size (next value)) :
    Sound size (liftM action >>= next) := steady first fun value _ => later value

/-- An action on the world, after which the heap can be larger. -/
theorem bind {refs : α → List ObjectRef} {action : Exec α} {next : α → Execution Flow}
    (first : Exec.Sound size refs action)
    (later : ∀ left value, Within left (refs value) → Sound left (next value)) :
    Sound size (liftM action >>= next) := by
  intro activation held
  rw [run_lift_bind]
  exact Exec.Sound.bind first fun left value grown within =>
    later left value within activation (held.mono grown)

/-- Nothing follows an action that never has a result. -/
theorem never {action : Exec α} {next : α → Execution Flow}
    (first : Leads size (fun _ _ => False) action) : Sound size (liftM action >>= next) := by
  intro activation held
  rw [run_lift_bind]
  exact Leads.never first

theorem raise {className text : String} {next : α → Execution Flow} :
    Sound size (liftM (Exec.raise className text : Exec α) >>= next) := never (raise_leads _ _)

theorem fail {cause : MachineError} {next : α → Execution Flow}
    (other : cause.isDangling = false) :
    Sound size (liftM (Exec.fail cause : Exec α) >>= next) := never (Leads.fail other)

/-! ### Operands and local slots -/

theorem push {value : Value} {next : Unit → Execution Flow} (within : Within size value.references)
    (later : Sound size (next ())) : Sound size (Execution.push value >>= next) := by
  intro activation held
  refine later { activation with stack := value :: activation.stack } ?_
  obtain ⟨locals, stack⟩ := within_append.mp held
  exact within_append.mpr ⟨locals, within_append.mpr ⟨within, stack⟩⟩

theorem pop {next : Value → Execution Flow}
    (later : ∀ value, Within size value.references → Sound size (next value)) :
    Sound size (Execution.pop >>= next) := by
  intro activation held
  obtain ⟨locals, stack⟩ := within_append.mp held
  rcases activation with ⟨method, index, slots, _ | ⟨value, rest⟩⟩
  · exact Leads.fail rfl
  · obtain ⟨top, others⟩ := within_append.mp stack
    exact later value top ⟨method, index, slots, rest⟩ (within_append.mpr ⟨locals, others⟩)

theorem popKind {kind : Kind} {next : Value → Execution Flow}
    (later : ∀ value, Within size value.references → Sound size (next value)) :
    Sound size (Execution.popKind kind >>= next) := by
  unfold Execution.popKind
  rw [bind_assoc]
  exact pop fun value within => steady (ofType_steady (Answers.expectKind within kind)) later

theorem popInt {next : Int32 → Execution Flow} (later : ∀ value, Sound size (next value)) :
    Sound size (Execution.popInt >>= next) := by
  unfold Execution.popInt
  rw [bind_assoc]
  exact pop fun value _ => andThen (ofType_steady (Answers.asInt value)) later

theorem popObject {action : String} {next : ObjectRef → Execution Flow}
    (later : ∀ object, object.Within size → Sound size (next object)) :
    Sound size (Execution.popObject action >>= next) := by
  unfold Execution.popObject
  rw [bind_assoc]
  exact pop fun value within => steady (nonNull_steady within action) fun object inside =>
    later object (within_cons.mp inside).1

theorem popMonitor {action : String} {next : Monitor → Execution Flow}
    (later : ∀ monitor, Within size monitor.references → Sound size (next monitor)) :
    Sound size (Execution.popMonitor action >>= next) := by
  unfold Execution.popMonitor
  rw [bind_assoc]
  refine pop fun value within => ?_
  dsimp only
  split
  · rw [bind_assoc]
    exact raise
  · cases value with
    | ref object => exact later (.object object) within
    | context => exact later .context within_nil
    | _ => exact fail rfl

theorem popMany {count : Nat} {next : List Value → Execution Flow}
    (later : ∀ values, Within size (Value.listReferences values) → Sound size (next values)) :
    Sound size (Execution.popMany count >>= next) := by
  intro activation held
  obtain ⟨locals, stack⟩ := within_append.mp held
  cases split : Decoder.splitFront? count activation.stack with
  | none =>
      have failed : (Execution.popMany count >>= next).run activation =
          Exec.fail .stackUnderflow := by
        simp [Execution.popMany, split, Exec.fail]
      rw [failed]
      exact Leads.fail rfl
  | some pair =>
      obtain ⟨front, rest⟩ := pair
      have left : (Execution.popMany count >>= next).run activation =
          (next front.reverse).run { activation with stack := rest } := by
        simp [Execution.popMany, split]
      rw [(Decoder.splitFront?_eq_some split).1, List.flatMap_append] at stack
      obtain ⟨taken, others⟩ := within_append.mp stack
      rw [left]
      refine later _ ?_ _ (within_append.mpr ⟨locals, others⟩)
      exact within_flatMap.mpr fun value member =>
        within_flatMap.mp taken value (List.mem_reverse.mp member)

theorem readLocal {slot : UInt16} {next : Value → Execution Flow}
    (later : ∀ value, Within size value.references → Sound size (next value)) :
    Sound size (Execution.readLocal slot >>= next) := by
  intro activation held
  cases found : activation.locals[slot.toNat]? with
  | none =>
      have failed : (Execution.readLocal slot >>= next).run activation =
          Exec.fail (.type (.localOutOfRange slot)) := by
        simp [Execution.readLocal, found, Exec.fail]
      rw [failed]
      exact Leads.fail rfl
  | some value =>
      have left : (Execution.readLocal slot >>= next).run activation =
          (next value).run activation := by
        simp [Execution.readLocal, found]
      rw [left]
      refine later value ?_ activation held
      exact within_flatMap.mp (within_append.mp held).1 value (List.mem_of_getElem? found)

theorem writeLocal {slot : UInt16} {value : Value} {next : Unit → Execution Flow}
    (within : Within size value.references) (later : Sound size (next ())) :
    Sound size (Execution.writeLocal slot value >>= next) := by
  intro activation held
  by_cases inside : slot.toNat < activation.locals.length
  · have left : (Execution.writeLocal slot value >>= next).run activation =
        (next ()).run { activation with locals := activation.locals.set slot.toNat value } := by
      simp [Execution.writeLocal, inside]
    obtain ⟨locals, stack⟩ := within_append.mp held
    rw [left]
    refine later _ (within_append.mpr ⟨within_flatMap.mpr fun other member => ?_, stack⟩)
    rcases List.mem_or_eq_of_mem_set member with old | rfl
    · exact within_flatMap.mp locals other old
    · exact within
  · have failed : (Execution.writeLocal slot value >>= next).run activation =
        Exec.fail (.type (.localOutOfRange slot)) := by
      simp [Execution.writeLocal, inside, Exec.fail]
    rw [failed]
    exact Leads.fail rfl

/-! ### Ends of instructions -/

theorem next : Sound size (Pure.pure .next) := pure within_nil

theorem jumpTo {label : Label} : Sound size (Execution.jumpTo label) := by
  intro activation held
  have left : (Execution.jumpTo label).run activation =
      ofMachine (activation.method.position label) >>= fun place =>
        Pure.pure (.jump place, activation) := by
    simp [Execution.jumpTo]
  rw [left]
  unfold PreparedMethod.position
  cases Analysis.resolve activation.method.labels label with
  | ok place => exact Leads.pure (within_append.mpr ⟨within_nil, held⟩)
  | error cause => exact Leads.fail rfl

theorem branchIf {holds : Bool} {label : Label} : Sound size (Execution.branchIf holds label) := by
  cases holds with
  | true => exact jumpTo
  | false => exact next

theorem seeWorld {next : World → Execution Flow}
    (later : ∀ world, world.Closed → world.heap.size = size → Sound size (next world)) :
    Sound size (getThe World >>= next) := by
  intro activation held world closed same
  exact later world closed same activation held world closed same

theorem changeWorld {change : World → World} {next : PUnit → Execution Flow}
    (changed : ∀ world : World, world.Closed → world.heap.size = size →
      (change world).heap = world.heap ∧ (change world).Closed)
    (later : Sound size (next ())) : Sound size (modifyThe World change >>= next) := by
  intro activation held world closed same
  obtain ⟨equal, kept⟩ := changed world closed same
  exact later activation held (change world) kept ((congrArg Heap.size equal).trans same)

end Sound

section

variable {classes : ClassTable} {size : Nat}

theorem staticName_steady (field : FieldRef) :
    Steady size noReferences (staticName classes field) := by
  unfold staticName
  split
  · exact Steady.pure within_nil
  · exact Leads.fail rfl

theorem classOf_steady {value : Value} (within : Within size value.references) :
    Steady size noReferences (classOf value) := by
  cases value with
  | ref object => exact readingObject_steady (within object List.mem_cons_self) Answers.className
  | context => exact Steady.pure within_nil
  | _ => exact Leads.fail rfl

theorem isInstance_steady {value : Value} (within : Within size value.references)
    (target : String) : Steady size noReferences (isInstance classes value target) :=
  Steady.andThen (classOf_steady within) fun _ => Steady.pure within_nil

/-- The initial values of fields refer to nothing. -/
theorem initialFields_within {className : String} {fields : Slots}
    (filled : initialFields classes className = .ok fields) : Within size fields.references := by
  refine Outcome.foldlM_keeps (fun slots : Slots => Within size slots.references)
    (fun slots field next kept stepped => ?_) within_nil filled
  obtain ⟨type, _, made⟩ := Outcome.bind_eq_ok.mp stepped
  cases made
  exact Slots.within_insertNew kept (Value.ofType_references type ▸ within_nil)

theorem initialFields_steady (className : String) :
    Steady size Slots.references (ofMachine (initialFields classes className)) := by
  cases filled : initialFields classes className with
  | ok fields => exact Steady.pure (initialFields_within filled)
  | error cause =>
      obtain ⟨slots, field, refused⟩ := Outcome.foldlM_error filled
      refine Leads.fail ?_
      cases parsed : ValueType.parse field.descriptor with
      | ok type => simp [parsed, bind, Except.bind, pure, Except.pure, Except.mapError] at refused
      | error fault =>
          simp only [parsed, Except.mapError] at refused
          cases refused
          rfl

theorem elementIndex_steady {array : ObjectRef} (inside : array.Within size) (index : Int32) :
    Steady size noReferences (elementIndex array index) := by
  refine Steady.bind (readingObject_steady inside Answers.array) fun values _ => ?_
  dsimp only
  split
  · exact Steady.pure within_nil
  · exact raise_leads _ _

theorem dispatchStart_steady (dispatch : Dispatch) (target : MethodRef) {arguments : List Value}
    (within : Within size (Value.listReferences arguments)) :
    Steady size noReferences (dispatchStart dispatch target arguments) := by
  unfold dispatchStart
  split
  · exact Steady.pure within_nil
  · exact raise_leads _ _
  · exact Steady.pure within_nil
  · exact classOf_steady (within_append.mp within).1
  · exact Steady.pure within_nil

theorem invoke_sound (dispatch : Dispatch) (target : MethodRef) :
    Sound size (invoke classes dispatch target) := by
  unfold invoke
  have parsed : Steady size noReferences (ofMachine (target.type.mapError .descriptor)) := by
    cases target.type with
    | ok type => exact Steady.pure within_nil
    | error cause => exact Leads.fail rfl
  refine Sound.andThen parsed fun type => Sound.popMany fun arguments within => ?_
  refine Sound.andThen (dispatchStart_steady dispatch target within) fun start => ?_
  split
  · exact Sound.pure within
  · rename_i native _
    refine Sound.bind (native.call_sound within) fun left value given => ?_
    cases value with
    | none => exact Sound.next
    | some value => exact Sound.push (within_flatMap.mp given value (by simp)) Sound.next
  · exact fun _ _ => Leads.fail rfl

/-- An instruction leaves no reference without its object. -/
theorem execute_sound (insn : Insn) : Sound size (execute classes insn) := by
  cases insn <;> dsimp -zeta only [execute]
  -- A value that is pushed or stored was popped, was read, or was made by a step that is sound.
  case label | line | nop => exact Sound.next
  case constNull | intConst | longConst | floatConst | doubleConst =>
    exact Sound.push within_nil Sound.next
  case textConst => exact Sound.bind (intern_sound _) fun _ _ made => Sound.push made Sound.next
  case load kind slot =>
    refine Sound.readLocal fun value held => ?_
    refine Sound.steady (ofType_steady (Answers.expectKind held kind)) fun value held => ?_
    exact Sound.push held Sound.next
  case store kind slot => exact Sound.popKind fun value held => Sound.writeLocal held Sound.next
  case increment slot amount =>
    refine Sound.readLocal fun value _ => ?_
    refine Sound.andThen (ofType_steady (Answers.asInt value)) fun value => ?_
    exact Sound.writeLocal within_nil Sound.next
  case pop => exact Sound.pop fun _ _ => Sound.next
  case dup => exact Sound.pop fun top held => Sound.push held (Sound.push held Sound.next)
  case dupBelow =>
    exact Sound.pop fun top held => Sound.pop fun second held' =>
      Sound.push held (Sound.push held' (Sound.push held Sound.next))
  case swap =>
    exact Sound.pop fun top held => Sound.pop fun second held' =>
      Sound.push held (Sound.push held' Sound.next)
  case binary kind op =>
    refine Sound.popKind fun b _ => Sound.popKind fun a _ => ?_
    refine Sound.steady (ofType_steady (Answers.binary? kind op a b)) fun value made => ?_
    cases value with
    | some value => exact Sound.push (within_flatMap.mp made value (by simp)) Sound.next
    | none => exact Sound.raise
  case neg kind =>
    refine Sound.popKind fun value _ => ?_
    exact Sound.steady (ofType_steady (Answers.negate value)) fun _ made =>
      Sound.push made Sound.next
  case convert source target =>
    refine Sound.popKind fun value _ => ?_
    exact Sound.steady (ofType_steady (Answers.convert value target)) fun _ made =>
      Sound.push made Sound.next
  case compare kind =>
    refine Sound.popKind fun b _ => Sound.popKind fun a _ => ?_
    exact Sound.andThen (ofType_steady (Answers.compare a b)) fun _ =>
      Sound.push within_nil Sound.next
  case jump target => exact Sound.jumpTo
  case branch condition target => exact Sound.popInt fun _ => Sound.branchIf
  case branchCompare condition target =>
    exact Sound.popInt fun _ => Sound.popInt fun _ => Sound.branchIf
  case branchNull target | branchNonNull target =>
    exact Sound.popKind fun _ _ => Sound.branchIf
  case branchSame target | branchDifferent target =>
    exact Sound.popKind fun _ _ => Sound.popKind fun _ _ => Sound.branchIf
  case tableSwitch low default targets => exact Sound.popInt fun key => Sound.jumpTo
  case new className =>
    dsimp only
    split
    · exact Sound.fail rfl
    · refine Sound.steady (initialFields_steady className) fun fields within => ?_
      exact Sound.bind (alloc_sound (.instance className fields) within)
        fun _ _ made => Sound.push made Sound.next
  case getField field =>
    refine Sound.popObject fun receiver inside => ?_
    refine Sound.steady (readingObject_steady inside Answers.get) fun content within => ?_
    dsimp only
    split
    · rename_i value found
      refine Sound.push ?_ Sound.next
      cases content with
      | «instance» className fields => exact Slots.within_get? within found
      | _ => cases found
    · exact Sound.fail rfl
  case putField field =>
    refine Sound.pop fun value held => Sound.popObject fun receiver inside => ?_
    refine Sound.steady (readingObject_steady inside Answers.get) fun content _ => ?_
    extract_lets declared
    split
    · exact Sound.fail rfl
    · exact Sound.andThen (setField_steady held) fun _ => Sound.next
  case getStatic field =>
    refine Sound.andThen (staticName_steady field) fun name => ?_
    refine Sound.seeWorld fun world closed same => ?_
    have statics := same ▸ (World.closed_iff.mp closed).2.1
    refine Sound.push ?_ Sound.next
    cases found : world.statics.get? name with
    | none => exact within_nil
    | some value => exact Slots.within_get? statics found
  case putStatic field =>
    refine Sound.andThen (staticName_steady field) fun name => Sound.pop fun value held => ?_
    refine Sound.changeWorld (fun world closed same => ⟨rfl, ?_⟩) Sound.next
    obtain ⟨heap, statics, others⟩ := World.closed_iff.mp closed
    exact World.closed_iff.mpr ⟨heap, Slots.within_insert statics (same ▸ held), others⟩
  case checkCast name =>
    refine Sound.pop fun value held => ?_
    dsimp only
    split
    · refine Sound.andThen (isInstance_steady held name) fun isInstance => ?_
      split
      · exact Sound.andThen (classOf_steady held) fun _ => Sound.raise
      · exact Sound.push held Sound.next
    · exact Sound.push held Sound.next
  case instanceOf name =>
    refine Sound.pop fun value held => ?_
    dsimp only
    have pushed : ∀ answer : Bool, Sound size
        (push (.int (if answer then 1 else 0)) >>= fun _ => Pure.pure .next) :=
      fun _ => Sound.push within_nil Sound.next
    split
    · exact pushed false
    · exact Sound.andThen (isInstance_steady held name) pushed
  case newArray element =>
    refine Sound.popInt fun count => ?_
    dsimp only
    split
    · exact Sound.raise
    · exact Sound.bind (newArray_sound element _) fun _ _ made => Sound.push made Sound.next
  case arrayLength =>
    refine Sound.popObject fun array inside => ?_
    exact Sound.steady (readingObject_steady inside Answers.array) fun _ _ =>
      Sound.push within_nil Sound.next
  case arrayLoad kind =>
    refine Sound.popInt fun index => Sound.popObject fun array inside => ?_
    refine Sound.andThen (elementIndex_steady inside index) fun place => ?_
    refine Sound.steady (readingObject_steady inside Answers.array) fun values within => ?_
    refine Sound.steady (ofType_steady (Answers.expectKind ?_ kind)) fun _ held =>
      Sound.push held Sound.next
    rw [Array.getD_eq_getD_getElem?]
    cases found : values[place]? with
    | none => exact within_nil
    | some element =>
        exact within_flatMap.mp within element (Array.mem_def.mp (Array.mem_of_getElem? found))
  case arrayStore kind =>
    refine Sound.popKind fun value held => Sound.popInt fun index => ?_
    refine Sound.popObject fun array inside => ?_
    refine Sound.andThen (elementIndex_steady inside index) fun place => ?_
    exact Sound.andThen (setElement_steady held) fun _ => Sound.next
  case invoke dispatch target => exact invoke_sound dispatch target
  case invokeDynamic => exact fun _ _ => Leads.fail rfl
  case «return» kind =>
    cases kind with
    | none => exact Sound.pure within_nil
    | some kind =>
        refine Sound.popKind fun value held => Sound.pure ?_
        simpa [Flow.references] using held
  case throw =>
    refine Sound.popObject fun exception inside => ?_
    rintro activation held world closed rfl
    exact ⟨Nat.le_refl _, closed, inside⟩
  case monitorEnter =>
    refine Sound.popMonitor fun monitor held => ?_
    refine Sound.changeWorld (fun world closed same => ⟨rfl, ?_⟩) Sound.next
    obtain ⟨heap, statics, monitors, context⟩ := World.closed_iff.mp closed
    refine World.closed_iff.mpr ⟨heap, statics, ?_, context⟩
    simpa [Monitors.references, Monitors.enter] using
      And.intro (within_flatMap.mp monitors) (same ▸ held)
  case monitorExit =>
    refine Sound.popMonitor fun monitor held => Sound.seeWorld fun world closed same => ?_
    dsimp only
    split
    · rename_i left exited
      refine Sound.changeWorld (fun world' closed' same' => ⟨rfl, ?_⟩) Sound.next
      obtain ⟨heap, statics, _, context⟩ := World.closed_iff.mp closed'
      refine World.closed_iff.mpr ⟨heap, statics, ?_, context⟩
      obtain ⟨held, erased, rfl⟩ := Option.map_eq_some_iff.mp exited
      have monitors := (World.closed_iff.mp closed).2.2.1
      rw [same] at monitors
      rw [same']
      exact within_flatMap.mpr fun other member =>
        within_flatMap.mp monitors other (eraseLast?_subset erased member)
    · exact Sound.raise

end

end Execution

end StackCoroutine
