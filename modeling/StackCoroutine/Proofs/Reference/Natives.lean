import StackCoroutine.Proofs.Erasing
import StackCoroutine.Proofs.Reference.Actions

/-!
The methods of the machine leave no reference without its object. They take references from the
chain of saved frames, from lock states and from their arguments, and hand them on to the heap and
to the context.
-/

namespace StackCoroutine

/-! ### Contexts -/

namespace Context

variable {size : Nat} {context next : Context Value}

/-- A context with frames of another one and otherwise the same. -/
theorem within_frames (within : Within size context.references)
    (frames : next.chain.frames ⊆ context.chain.frames)
    (arguments : next.argumentFrames = context.argumentFrames)
    (payload : next.payload = context.payload) : Within size next.references := by
  obtain ⟨saved, passed, held⟩ := within_iff.mp within
  rw [within_iff, arguments, payload]
  exact ⟨fun frame member => saved frame (frames member), passed, held⟩

theorem setModeCode_within {code : Int32} (within : Within size context.references)
    (done : context.setModeCode code = .ok next) : Within size next.references := by
  obtain ⟨target, _, set⟩ := Outcome.bind_eq_ok.mp done
  obtain ⟨mode, _, made⟩ := Outcome.bind_eq_ok.mp set
  cases made
  refine within_frames within (fun frame member => ?_) rfl rfl
  dsimp only at member
  split at member <;> exact member

theorem loadNext_within {position : Nat} {frame : SavedFrame Value}
    (within : Within size context.references)
    (done : context.loadNext = .ok ((position, frame), next)) :
    Within size frame.references ∧ Within size next.references := by
  obtain ⟨⟨loaded, chain⟩, taken, made⟩ := Outcome.bind_eq_ok.mp done
  cases made
  unfold Chain.loadNext at taken
  split at taken
  · rename_i found
    cases taken
    exact ⟨(within_iff.mp within).1 frame (List.mem_of_getElem? found),
      within_frames within (List.Subset.refl _) rfl rfl⟩
  · split at taken <;> cases taken

theorem unloadCurrent_within {frame : SavedFrame Value} (within : Within size context.references)
    (done : context.unloadCurrent = .ok (frame, next)) : Within size next.references := by
  obtain ⟨⟨dropped, chain⟩, taken, made⟩ := Outcome.bind_eq_ok.mp done
  cases made
  unfold Chain.unloadCurrent at taken
  split at taken
  · cases taken
  · split at taken <;> cases taken
    exact within_frames within List.eraseIdx_subset rfl rfl

theorem unloadToBefore_within {position : Nat} (within : Within size context.references)
    (done : context.unloadToBefore position = .ok next) : Within size next.references := by
  obtain ⟨chain, taken, made⟩ := Outcome.bind_eq_ok.mp done
  cases made
  unfold Chain.unloadToBefore at taken
  split at taken <;> cases taken
  exact within_frames within (List.take_subset _ _) rfl rfl

theorem push_within {frame : SavedFrame Value} (within : Within size context.references)
    (inside : Within size frame.references) : Within size (context.push frame).references := by
  obtain ⟨saved, passed, held⟩ := within_iff.mp within
  refine within_iff.mpr ⟨fun other member => ?_, passed, held⟩
  rcases (List.mem_insertIdx (Nat.min_le_right _ _)).mp member with rfl | old
  · exact inside
  · exact saved other old

theorem argument_within {index : Nat} {value : Value} (within : Within size context.references)
    (done : context.argument index = .ok value) : Within size value.references := by
  unfold argument at done
  split at done
  · cases done
  · rename_i arguments rest frames
    have passed := (within_iff.mp within).2.1 arguments (by simp [frames])
    split at done <;> cases done
    rename_i found
    exact within_flatMap.mp passed value (List.mem_of_getElem? found)

end Context

theorem LockState.exit_within {size : Nat} {state left : LockState Value} {monitor : Value}
    (within : Within size state.references)
    (done : state.exit Value.isSameMonitor monitor = .ok left) : Within size left.references := by
  unfold exit at done
  split at done <;> cases done
  rename_i monitors erased
  exact within_flatMap.mpr fun value member =>
    within_flatMap.mp within value (eraseLast?_subset erased member)

/-! ### The methods of the machine -/

namespace Native

open Exec

variable {α β : Type} {size : Nat} {arguments : List Value}

theorem present_within {value : Value} (within : Within size value.references) :
    Within size (Value.optionReferences (present value)) := by
  unfold present
  split
  · exact within_nil
  · simpa [Value.optionReferences] using within

theorem argument_steady (native : Native) (within : Within size (Value.listReferences arguments))
    (index : Nat) : Steady size Value.references (native.argument arguments index) := by
  unfold argument
  split
  · rename_i value found
    exact Steady.pure (within_flatMap.mp within value (List.mem_of_getElem? found))
  · exact Leads.fail rfl

theorem expectContext_steady (value : Value) : Steady size noReferences (expectContext value) := by
  cases value <;> first | exact Steady.pure within_nil | exact Leads.fail rfl

theorem loadNextFrame_sound : Sound size Value.references loadNextFrame := by
  refine Steady.bind context_steady fun current held => ?_
  have loads : Steady size (fun loaded => loaded.1.2.references ++ loaded.2.references)
      (ofProtocol current.loadNext) := by
    refine ofProtocol_steady fun loaded done => ?_
    obtain ⟨⟨position, frame⟩, next⟩ := loaded
    exact within_append.mpr (Context.loadNext_within held done)
  refine Steady.bind loads fun loaded within => ?_
  obtain ⟨⟨position, frame⟩, next⟩ := loaded
  obtain ⟨frameWithin, nextWithin⟩ := within_append.mp within
  refine Steady.andThen (setContext_steady nextWithin) fun _ => ?_
  refine Sound.bind (alloc_sound (.savedFrame frame (some position)) frameWithin) ?_
  exact fun _ object _ made => Leads.pure made

theorem initSavedFrame_steady (native : Native)
    (within : Within size (Value.listReferences arguments)) :
    Steady size noReferences (native.initSavedFrame arguments) := by
  refine Steady.bind (argument_steady native within 0) fun receiver held => ?_
  refine Steady.bind (nonNull_steady held _) fun target inside => ?_
  refine Steady.bind (argument_steady native within 1) fun name named => ?_
  refine Steady.bind (ofType_steady (Answers.asObject named)) fun object found => ?_
  have rest : ∀ className, Steady size noReferences (do
      let lockState ← native.argument arguments 5
      let methodId ← ofType (← native.argument arguments 2).asInt
      let point ← ofType (← native.argument arguments 3).asInt
      let data ← native.argument arguments 4
      let frame := .savedFrame ⟨className, methodId, point, data, present lockState⟩ none
      let heap ← reading fun heap => heap.replace target frame
      changeHeap fun _ => heap) := by
    intro className
    refine Steady.bind (argument_steady native within 5) fun lockState lockWithin => ?_
    refine Steady.bind (argument_steady native within 2) fun methodId _ => ?_
    refine Steady.andThen (ofType_steady (Answers.asInt methodId)) fun methodId => ?_
    refine Steady.bind (argument_steady native within 3) fun point _ => ?_
    refine Steady.andThen (ofType_steady (Answers.asInt point)) fun point => ?_
    refine Steady.bind (argument_steady native within 4) fun data dataWithin => ?_
    refine replace_steady (within_cons.mp inside).1 ?_
    exact within_append.mpr ⟨dataWithin, present_within lockWithin⟩
  split
  · exact Steady.andThen (readingObject_steady (within_cons.mp found).1 Answers.text) rest
  · exact Leads.never (raise_leads _ _)

theorem initThrowable_steady (native : Native)
    (within : Within size (Value.listReferences arguments)) :
    Steady size noReferences (native.initThrowable arguments) := by
  refine Steady.bind (argument_steady native within 0) fun receiver held => ?_
  refine Steady.bind (nonNull_steady held _) fun target inside => ?_
  have there := readingObject_steady (within_cons.mp inside).1 Answers.get
  split
  · refine Steady.bind (argument_steady _ within 1) fun message fits => ?_
    refine Steady.bind there fun content _ => ?_
    cases content <;> first | exact setField_steady fits | exact Leads.fail rfl
  · have none : Steady size Value.references (Pure.pure .null : Exec Value) := .pure within_nil
    refine Steady.bind none fun message fits => Steady.bind there fun content _ => ?_
    cases content <;> first | exact setField_steady fits | exact Leads.fail rfl

theorem releaseLock_steady (native : Native)
    (within : Within size (Value.listReferences arguments)) :
    Steady size noReferences (native.releaseLock arguments) := by
  refine Steady.bind (argument_steady native within 0) fun receiver held => ?_
  refine Steady.bind (nonNull_steady held _) fun target inside => ?_
  refine Steady.bind (argument_steady native within 1) fun monitor _ => ?_
  refine Steady.bind (readingObject_steady (within_cons.mp inside).1 Answers.lockState)
    fun state kept => ?_
  split
  · rename_i left done
    exact update_steady fun _ _ => state.exit_within kept done
  · exact raise_leads _ _
  · exact Leads.fail rfl

theorem equalTexts_steady (native : Native)
    (within : Within size (Value.listReferences arguments)) :
    Steady size noReferences (native.equalTexts arguments) := by
  refine Steady.bind (argument_steady native within 0) fun receiver held => ?_
  refine Steady.bind (nonNull_steady held _) fun target inside => ?_
  refine Steady.bind (argument_steady native within 1) fun value fits => ?_
  split
  · rename_i other
    refine Steady.bind (readingObject_steady (fits other List.mem_cons_self) Answers.get)
      fun content _ => ?_
    split
    · refine Steady.andThen (readingObject_steady (within_cons.mp inside).1 Answers.text) fun _ => ?_
      exact Steady.pure within_nil
    · exact Steady.pure within_nil
  · exact Steady.pure within_nil

/-- A method of the machine gives nothing but what refers to objects. -/
theorem call_sound (native : Native) (within : Within size (Value.listReferences arguments)) :
    Sound size Value.optionReferences (native.call arguments) := by
  have onContext : ∀ {next : Unit → Exec (Option Value)},
      Sound size Value.optionReferences (next ()) →
      Sound size Value.optionReferences
        (native.argument arguments 0 >>= fun value => expectContext value >>= next) :=
    fun later => Steady.bind (argument_steady native within 0) fun value _ =>
      Steady.andThen (expectContext_steady value) fun _ => later
  have onObject : ∀ {next : ObjectRef → Exec (Option Value)} (index : Nat) (action : String),
      (∀ object, object.Within size → Sound size Value.optionReferences (next object)) →
      Sound size Value.optionReferences
        (native.argument arguments index >>= fun value => nonNull value action >>= next) :=
    fun index action later => Steady.bind (argument_steady native within index) fun value held =>
      Steady.bind (nonNull_steady held action) fun object inside =>
        later object (within_cons.mp inside).1
  -- A method of the machine answers with nothing, a number, or a value it was given or has made.
  have nothing : Sound size Value.optionReferences (pure none : Exec (Option Value)) :=
    Leads.pure within_nil
  have number : ∀ value : Int32,
      Sound size Value.optionReferences (pure (some (.int value)) : Exec (Option Value)) :=
    fun value => Leads.pure within_nil
  have answer : ∀ {size : Nat} {value : Value}, Within size value.references →
      Sound size Value.optionReferences (pure (some value) : Exec (Option Value)) :=
    fun fits => Leads.pure (by simpa [Value.optionReferences] using fits)
  cases native <;> unfold call
  case suspend => exact onContext (raise_leads _ _)
  case getMode => exact onContext (Steady.bind context_steady fun _ _ => number _)
  case setMode =>
    refine onContext (Steady.bind (argument_steady _ within 1) fun code _ => ?_)
    refine Steady.andThen (ofType_steady (Answers.asInt code)) fun code => ?_
    refine Steady.bind context_steady fun current held => ?_
    refine Steady.bind (ofProtocol_steady fun next done =>
      Context.setModeCode_within held done) fun next kept => ?_
    exact Steady.andThen (setContext_steady kept) fun _ => nothing
  case loadNext =>
    exact onContext (Sound.bind loadNextFrame_sound fun _ _ _ fits => answer fits)
  case unloadCurrent =>
    refine onContext (Steady.bind context_steady fun current held => ?_)
    have takes : Steady size (fun taken => taken.2.references)
        (ofProtocol current.unloadCurrent) :=
      ofProtocol_steady fun taken done => Context.unloadCurrent_within held done
    refine Steady.bind takes fun taken kept => ?_
    exact Steady.andThen (setContext_steady kept) fun _ => nothing
  case unloadToBefore =>
    refine onContext (onObject 1 _ fun object inside => ?_)
    refine Steady.andThen (readingObject_steady inside Answers.framePosition) fun position => ?_
    refine Steady.bind context_steady fun current held => ?_
    refine Steady.bind (ofProtocol_steady fun next done =>
      Context.unloadToBefore_within held done) fun next kept => ?_
    exact Steady.andThen (setContext_steady kept) fun _ => nothing
  case pushNew =>
    refine onContext (onObject 1 _ fun object inside => ?_)
    refine Steady.bind (readingObject_steady inside Answers.savedFrame) fun frame fits => ?_
    refine Steady.bind context_steady fun current held => ?_
    exact Steady.andThen (setContext_steady (Context.push_within held fits)) fun _ => nothing
  case getPayload =>
    refine onContext (Steady.bind context_steady fun current held => answer ?_)
    cases payload : current.payload with
    | none => exact within_nil
    | some value => exact (Context.within_iff.mp held).2.2 value payload
  case setPayload =>
    refine onContext (Steady.bind (argument_steady _ within 1) fun value fits => ?_)
    refine Steady.bind context_steady fun current held => ?_
    refine Steady.andThen (setContext_steady ?_) fun _ => nothing
    obtain ⟨saved, passed, _⟩ := Context.within_iff.mp held
    refine Context.within_iff.mpr ⟨saved, passed, fun other given => ?_⟩
    exact within_flatMap.mp (present_within fits) other (Option.mem_toList.mpr given)
  case getArgumentCount =>
    refine onContext (Steady.bind context_steady fun current _ => ?_)
    exact Steady.andThen (ofProtocol_steady fun _ _ => within_nil) fun _ => number _
  case getArgument =>
    refine onContext (Steady.bind (argument_steady _ within 1) fun index _ => ?_)
    refine Steady.andThen (ofType_steady (Answers.asInt index)) fun index => ?_
    have fetched : Sound size Value.optionReferences (do
        return some (← ofProtocol ((← context).argument index.toInt.toNat))) :=
      Steady.bind context_steady fun current held => Steady.bind (ofProtocol_steady
        fun value done => Context.argument_within held done) fun value fits => answer fits
    split
    · exact Leads.never (Leads.fail rfl)
    · exact fetched
  case savedFrameInit =>
    exact Steady.andThen (initSavedFrame_steady _ within) fun _ => nothing
  case getPoint =>
    exact onObject 0 _ fun object inside =>
      Steady.bind (readingObject_steady inside Answers.savedFrame) fun _ _ => number _
  case getData =>
    exact onObject 0 _ fun object inside =>
      Steady.bind (readingObject_steady inside Answers.savedFrame) fun _ fits =>
        answer (within_append.mp fits).1
  case getLockState =>
    refine onObject 0 _ fun object inside => ?_
    refine Steady.bind (readingObject_steady inside Answers.savedFrame) fun frame fits => answer ?_
    cases held : frame.lockState with
    | none => exact within_nil
    | some value => exact within_flatMap.mp (within_append.mp fits).2 value (by simp [held])
  case lockStateInit =>
    refine onObject 0 _ fun object inside => ?_
    rw [← bind_assoc]
    exact Steady.andThen (replace_steady inside within_nil) fun _ => nothing
  case lockStateEnter =>
    refine onObject 0 _ fun object inside => ?_
    refine Steady.bind (argument_steady _ within 1) fun monitor fits => ?_
    refine Steady.bind (readingObject_steady inside Answers.lockState) fun state kept => ?_
    refine Steady.andThen (update_steady fun _ _ => ?_) fun _ => nothing
    simpa [HeapObject.references, LockState.references, LockState.enter] using
      And.intro (within_flatMap.mp kept) fits
  case lockStateExit => exact Steady.andThen (releaseLock_steady _ within) fun _ => nothing
  case lockStateToArray =>
    refine onObject 0 _ fun object inside => ?_
    refine Steady.bind (readingObject_steady inside Answers.lockState) fun state kept => ?_
    refine Sound.bind (alloc_sound (.array _ state.monitors.toArray) ?_) fun _ array _ made => ?_
    · simpa [HeapObject.references] using within_flatMap.mp kept
    · exact Leads.pure made
  case printLine =>
    refine Steady.bind (argument_steady _ within 0) fun value fits => ?_
    refine Steady.andThen (reading_steady fun heap closed same =>
      same ▸ Answers.display closed (same ▸ fits)) fun line => ?_
    exact Steady.andThen (modify_steady fun _ closed _ => ⟨rfl, closed⟩) fun _ => nothing
  case objectInit => exact nothing
  case throwableInit | throwableInitMessage =>
    exact Steady.andThen (initThrowable_steady _ within) fun _ => nothing
  case getMessage =>
    exact onObject 0 _ fun object inside =>
      Steady.bind (readingObject_steady inside Answers.messageOf) fun _ fits => answer fits
  case valueOf kind =>
    refine Steady.bind (argument_steady _ within 0) fun value fits => ?_
    refine Steady.andThen (reading_steady fun heap closed same =>
      same ▸ Answers.display closed (same ▸ fits)) fun text => ?_
    exact Sound.bind (newText_sound text) fun _ _ _ made => answer made
  case concat =>
    refine onObject 0 _ fun first inside => onObject 1 _ fun second inside' => ?_
    refine Steady.andThen (readingObject_steady inside Answers.text) fun front => ?_
    refine Steady.andThen (readingObject_steady inside' Answers.text) fun back => ?_
    exact Sound.bind (newText_sound _) fun _ _ _ made => answer made
  case length =>
    exact onObject 0 _ fun object inside =>
      Steady.andThen (readingObject_steady inside Answers.text) fun _ => number _
  case textEquals => exact Steady.andThen (equalTexts_steady _ within) fun _ => number _

end Native

end StackCoroutine
