import StackCoroutine.Proofs.Assignability
import StackCoroutine.Proofs.Frame.Joins
import StackCoroutine.Proofs.Frame.Kinds

/-!
The names that references in frames can have. A universe of names holds the root, the elements of its
arrays and all superclasses, so neither reading from an array nor a merge leaves it; the possible
names of a method form one, and every frame of its analysis keeps to them.
-/

namespace StackCoroutine

/-- Names that reading from arrays and merging do not lead out of. -/
structure Universe (hierarchy : Hierarchy) (names : List String) : Prop where
  object : Names.object ∈ names
  element : ∀ name ∈ names, Transfer.elementName (.reference name) ∈ names
  super : ∀ name, hierarchy.IsSuper name → name ∈ names

/-- A reference has one of the names. -/
def FrameValue.Named (names : List String) (value : FrameValue) : Prop :=
  ∀ name, value = .reference name → name ∈ names

/-- All references of the frame have names of the list. -/
structure Frame.Named (names : List String) (frame : Frame) : Prop where
  locals : ∀ value ∈ frame.locals, value.Named names
  stack : ∀ value ∈ frame.stack, value.Named names

variable {hierarchy : Hierarchy} {names : List String}

namespace FrameValue

theorem named_reference {name : String} : Named names (.reference name) ↔ name ∈ names := by
  simp [Named]

theorem named_ofKind {kind : Kind} {name : String} (known : kind = .ref → name ∈ names) :
    Named names (ofKind kind name) := by
  cases kind <;> simp_all [Named, ofKind]

theorem merge_named (whole : Universe hierarchy names) {a b : FrameValue} (first : a.Named names)
    (second : b.Named names) : (merge hierarchy a b).Named names := by
  unfold merge
  split
  · exact first
  split
  · exact second
  · exact first
  · rename_i x y _
    rw [named_reference] at first second ⊢
    have known := hierarchy.commonSuper_known x y
    rcases known with same | same | root | super
    · rwa [same]
    · rwa [same]
    · rw [root]
      exact whole.object
    · exact whole.super _ super
  · simp [Named]

end FrameValue

theorem Frame.merge_named (whole : Universe hierarchy names) {index : Nat}
    {mine other merged : Frame} (first : mine.Named names) (second : other.Named names)
    (joined : Frame.merge hierarchy index mine other = .ok merged) : merged.Named names := by
  obtain ⟨_, locals, stack, _⟩ := merge_eq_ok.mp joined
  have zipped : ∀ {as bs : List FrameValue}, (∀ value ∈ as, value.Named names) →
      (∀ value ∈ bs, value.Named names) →
      ∀ value ∈ List.zipWith (FrameValue.merge hierarchy) as bs, value.Named names := by
    intro as bs named named' value member
    obtain ⟨pair, listed, rfl⟩ := List.mem_map.mp (List.map_uncurry_zip_eq_zipWith ▸ member)
    have both := List.of_mem_zip listed
    exact FrameValue.merge_named whole (named _ both.1) (named' _ both.2)
  constructor
  · rw [locals]
    exact zipped first.locals second.locals
  · rw [stack]
    exact zipped first.stack second.stack

namespace Transfer

variable {α β : Type} {index : Nat}

/-- A transfer that leaves no names but those of the list, and gives what the predicate says. -/
def Naming (names : List String) (transfer : Transfer α) (gives : α → Prop) : Prop :=
  ∀ frame after value, frame.Named names → transfer.run frame = .ok (value, after) →
    after.Named names ∧ gives value

theorem Naming.bind {first : Transfer α} {next : α → Transfer β} {gives : α → Prop}
    {last : β → Prop} (start : Naming names first gives)
    (follows : ∀ value, gives value → Naming names (next value) last) :
    Naming names (first >>= next) last := by
  intro frame after value named done
  rw [StateT.run_bind] at done
  obtain ⟨⟨middle, between⟩, here, later⟩ := Outcome.bind_eq_ok.mp done
  obtain ⟨named', given⟩ := start _ _ _ named here
  exact follows middle given _ _ _ named' later

theorem naming_pure {value : α} {gives : α → Prop} (given : gives value) :
    Naming names (pure value) gives := by
  intro frame after result named done
  cases done
  exact ⟨named, given⟩

theorem naming_fail {cause : AnalyzeError} {gives : α → Prop} :
    Naming names (fail cause) gives := by
  intro frame after value named done
  cases done

theorem naming_lift {outcome : Except AnalyzeError α} :
    Naming names (lift outcome) fun value => outcome = .ok value := by
  intro frame after value named done
  cases outcome <;> cases done
  exact ⟨named, rfl⟩

theorem naming_push {value : FrameValue} (known : value.Named names) :
    Naming names (push value) fun _ => True := by
  intro frame after result named done
  cases done
  exact ⟨⟨named.locals, by simpa [known] using named.stack⟩, trivial⟩

theorem naming_pop : Naming names (pop index) fun value => value.Named names := by
  intro frame after value named done
  obtain ⟨locals, _ | ⟨top, rest⟩⟩ := frame
  · cases done
  · cases done
    exact ⟨⟨named.locals, fun other member => named.stack other (List.mem_cons_of_mem _ member)⟩,
      named.stack _ List.mem_cons_self⟩

theorem naming_popKind {kind : Kind} :
    Naming names (popKind index kind) fun value => value.Named names := by
  refine naming_pop.bind fun value known => ?_
  split
  · exact naming_pure known
  · exact naming_fail

theorem naming_readLocal {slot : Nat} :
    Naming names (readLocal index slot) fun value => value.Named names := by
  intro frame after value named done
  cases found : frame.locals[slot]? with
  | none => simp [readLocal, StateT.run, found] at done
  | some there =>
      simp only [readLocal, StateT.run, found, Except.ok.injEq, Prod.mk.injEq] at done
      obtain ⟨rfl, rfl⟩ := done
      exact ⟨named, named.locals _ (List.mem_of_getElem? found)⟩

theorem naming_writeLocal {slot : Nat} {value : FrameValue} (known : value.Named names) :
    Naming names (writeLocal index slot value) fun _ => True := by
  intro frame after result named done
  have free : FrameValue.uninitialized.Named names := by simp [FrameValue.Named]
  unfold writeLocal Frame.setLocal at done
  simp only [StateT.run] at done
  split at done
  · cases done
  cases done
  refine ⟨⟨fun other member => ?_, named.stack⟩, trivial⟩
  have set : ∀ {values : List FrameValue} (place : Nat) {new : FrameValue},
      (∀ value ∈ values, value.Named names) → new.Named names →
      ∀ value ∈ values.set place new, value.Named names := by
    intro values place new all fits value member
    rcases List.mem_or_eq_of_mem_set member with old | rfl
    · exact all value old
    · exact fits
  have cleared := set (slot - 1) named.locals free
  split at member <;> split at member
  · exact set _ (set _ cleared known) free other member
  · exact set _ (set _ named.locals known) free other member
  · exact set _ cleared known other member
  · exact set _ named.locals known other member

theorem naming_pushType {type : ValueType} (known : ∀ name ∈ Analysis.typeNames type, name ∈ names) :
    Naming names (pushType type) fun _ => True := by
  unfold pushType FrameValue.ofType?
  cases kind : type.kind with
  | none => exact naming_pure trivial
  | some found =>
      refine naming_push (FrameValue.named_ofKind fun reference => known _ ?_)
      have is_reference : type.isReference = true := by
        cases type <;> simp_all [ValueType.kind, ValueType.isReference]
      simp [Analysis.typeNames, is_reference]

theorem naming_popType {type : ValueType} :
    Naming names (popType index type) fun _ => True := by
  unfold popType
  split
  · exact naming_popKind.bind fun _ _ => naming_pure trivial
  · exact naming_fail

theorem naming_popArguments {types : List ValueType} :
    Naming names (popArguments index types) fun _ => True := by
  unfold popArguments
  induction types.reverse with
  | nil => exact naming_pure trivial
  | cons first rest ih => exact naming_popType.bind fun _ _ => ih

theorem naming_numeric {kind : Kind} : Naming names (numeric index kind) fun _ => True := by
  unfold numeric
  split
  · exact naming_fail
  · exact naming_pure trivial

theorem naming_operandsFor {kind : Kind} {op : BinaryOp} :
    Naming names (operandsFor index kind op) fun _ => True := by
  rw [operandsFor_eq]
  split
  · exact naming_pure trivial
  · exact naming_fail

theorem naming_popCall {receiver : Bool} {type : MethodType}
    (known : ∀ name ∈ Analysis.typeNames type.result, name ∈ names) :
    Naming names (popArguments index type.parameters >>= fun _ =>
      if receiver then popKind index .ref >>= fun _ => pushType type.result
      else pushType type.result) fun _ => True := by
  refine naming_popArguments.bind fun _ _ => ?_
  cases receiver
  · exact naming_pushType known
  · exact naming_popKind.bind fun _ _ => naming_pushType known

theorem ofDescriptor_toList {outcome : Except DescriptorError α} {value : α}
    (read : ofDescriptor outcome = .ok value) : outcome.toOption.toList = [value] := by
  rw [Outcome.mapError_eq_ok.mp read]
  rfl

/-- Instructions bring the names they mention, and those of array elements. -/
theorem execute_named (whole : Universe hierarchy names) {result : Option Kind} {insn : Insn}
    (known : ∀ name ∈ Analysis.insnNames insn, name ∈ names) :
    Naming names (execute index result insn) fun _ => True := by
  have plain : ∀ {value : FrameValue}, (∀ name, value ≠ .reference name) →
      Naming names (push value) fun _ => True :=
    fun other => naming_push fun name same => absurd same (other name)
  have done : Naming names (pure () : Transfer Unit) fun _ => True := naming_pure trivial
  have drop : ∀ {kind : Kind} {next : Transfer Unit}, Naming names next (fun _ => True) →
      Naming names (popKind index kind >>= fun _ => next) fun _ => True :=
    fun follows => naming_popKind.bind fun _ _ => follows
  cases insn <;> dsimp only [execute]
  case label | line | nop | jump => exact done
  case constNull | intConst | longConst | floatConst | doubleConst => exact plain (by simp)
  case textConst | new =>
    exact naming_push (FrameValue.named_reference.mpr (known _ (by simp [Analysis.insnNames])))
  case load =>
    refine naming_readLocal.bind fun value local_named => ?_
    split
    · exact naming_push local_named
    · exact naming_fail
  case store => exact naming_popKind.bind fun value popped => naming_writeLocal popped
  case increment =>
    refine naming_readLocal.bind fun value _ => ?_
    split
    · exact naming_fail
    · exact done
  case pop => exact naming_pop.bind fun _ _ => done
  case dup =>
    exact naming_pop.bind fun _ top => (naming_push top).bind fun _ _ => naming_push top
  case dupBelow =>
    exact naming_pop.bind fun _ top => naming_pop.bind fun _ second =>
      (naming_push top).bind fun _ _ => (naming_push second).bind fun _ _ => naming_push top
  case swap =>
    exact naming_pop.bind fun _ top => naming_pop.bind fun _ second =>
      (naming_push top).bind fun _ _ => naming_push second
  case binary =>
    exact naming_operandsFor.bind fun _ _ => drop (naming_popKind.bind fun _ named => naming_push named)
  case neg => exact naming_numeric.bind fun _ _ => naming_popKind.bind fun _ named => naming_push named
  case convert source target =>
    refine naming_numeric.bind fun _ _ => drop (naming_numeric.bind fun _ _ => naming_push ?_)
    exact FrameValue.named_ofKind fun reference => by
      rw [reference]
      exact whole.object
  case compare => exact naming_numeric.bind fun _ _ => drop (drop (plain (by simp)))
  case branch | tableSwitch | branchNull | branchNonNull | throw | monitorEnter | monitorExit =>
    exact drop done
  case branchCompare | branchSame | branchDifferent => exact drop (drop done)
  case arrayStore => exact drop (drop (drop done))
  case getField field =>
    refine naming_lift.bind fun type read => drop (naming_pushType fun name listed => known name ?_)
    simpa [Analysis.insnNames, ofDescriptor_toList read] using listed
  case getStatic field =>
    refine naming_lift.bind fun type read => naming_pushType fun name listed => known name ?_
    simpa [Analysis.insnNames, ofDescriptor_toList read] using listed
  case putField => exact naming_lift.bind fun _ _ => naming_popType.bind fun _ _ => drop done
  case putStatic => exact naming_lift.bind fun _ _ => naming_popType
  case checkCast =>
    refine naming_lift.bind fun _ _ => drop (naming_push ?_)
    exact FrameValue.named_reference.mpr (known _ (by simp [Analysis.insnNames]))
  case instanceOf => exact naming_lift.bind fun _ _ => drop (plain (by simp))
  case newArray =>
    exact drop (naming_push (FrameValue.named_reference.mpr (known _ (by simp [Analysis.insnNames]))))
  case arrayLength => exact drop (plain (by simp))
  case arrayLoad kind =>
    refine drop (naming_popKind.bind fun array named => naming_push ?_)
    split
    · rw [FrameValue.named_reference]
      cases array with
      | reference name => exact whole.element name (named name rfl)
      | _ => exact whole.object
    · exact FrameValue.named_ofKind fun reference => absurd reference (by assumption)
  case invoke dispatch method =>
    refine naming_lift.bind fun type read => naming_popCall fun name listed => known name ?_
    simpa [Analysis.insnNames, ofDescriptor_toList read] using listed
  case invokeDynamic =>
    refine naming_lift.bind fun type read => naming_popArguments.bind fun _ _ =>
      naming_pushType fun name listed => known name ?_
    simpa [Analysis.insnNames, ofDescriptor_toList read] using listed
  case «return» kind =>
    have refused : Naming names (fail (.returnMismatch index result) : Transfer Unit)
        fun _ => True := naming_fail
    cases kind <;> dsimp only <;> split
    · exact refused.bind fun _ _ => done
    · exact done
    · exact refused.bind fun _ _ => drop done
    · exact drop done

end Transfer

namespace Analysis

theorem elementName_plain {name : String} (plain : ¬ Bracketed name) :
    Transfer.elementName (.reference name) = Names.object := by
  simp [Transfer.elementName, ValueType.ofInternalName_class plain]

theorem elementName_shorter (name : String) :
    Transfer.elementName (.reference name) = Names.object ∨
      (Transfer.elementName (.reference name)).length < name.length := by
  unfold Transfer.elementName
  dsimp only
  split
  · rename_i element denotes
    split
    · rename_i reference
      exact Or.inr (ValueType.internalName_shorter denotes reference)
    · exact Or.inl rfl
  · exact Or.inl rfl

theorem nameLayers_self (depth : Nat) (name : String) : name ∈ nameLayers depth name := by
  cases depth with
  | zero => simp [nameLayers]
  | succ depth =>
      unfold nameLayers
      split <;> simp

theorem nameLayers_plain {name : String} (plain : ¬ Bracketed name) (depth : Nat) :
    nameLayers depth name = [name] := by
  cases depth with
  | zero => rfl
  | succ depth => exact if_neg plain

/-- The layers end only where the element is the root. -/
theorem nameLayers_element {depth : Nat} {name : String} (enough : name.length ≤ depth)
    {other : String} (member : other ∈ nameLayers depth name) :
    Transfer.elementName (.reference other) = Names.object ∨
      Transfer.elementName (.reference other) ∈ nameLayers depth name := by
  induction depth generalizing name with
  | zero =>
      have same : other = name := by simpa [nameLayers] using member
      rcases elementName_shorter other with root | shorter
      · exact Or.inl root
      · rw [same] at shorter
        omega
  | succ depth ih =>
      by_cases bracketed : Bracketed name
      · have layers : nameLayers (depth + 1) name =
            name :: nameLayers depth (Transfer.elementName (.reference name)) := if_pos bracketed
        rw [layers] at member ⊢
        rcases List.mem_cons.mp member with rfl | deeper
        · exact Or.inr (List.mem_cons_of_mem _ (nameLayers_self depth _))
        rcases elementName_shorter name with root | shorter
        · have plain : ¬ Bracketed Names.object := by simp [bracketed_iff, Names.object]
          rw [root, nameLayers_plain plain, List.mem_singleton] at deeper
          rw [deeper]
          exact Or.inl (elementName_plain plain)
        · exact (ih (by omega) deeper).imp_right (List.mem_cons_of_mem _)
      · rw [nameLayers_plain bracketed, List.mem_singleton] at member
        rw [member]
        exact Or.inl (elementName_plain bracketed)

variable {owner : String} {method : Method}

theorem given_possible {name : String} (given : name ∈ givenNames owner method) :
    name ∈ possibleNames hierarchy owner method :=
  List.mem_flatMap.mpr ⟨name, List.mem_append_left _ given, nameLayers_self _ _⟩

theorem possibleNames_universe :
    Universe hierarchy (possibleNames hierarchy owner method) where
  object := given_possible (by simp [givenNames])
  element name member := by
    obtain ⟨source, listed, layer⟩ := List.mem_flatMap.mp member
    rcases nameLayers_element (Nat.le_refl _) layer with root | deeper
    · rw [root]
      exact given_possible (by simp [givenNames])
    · exact List.mem_flatMap.mpr ⟨source, listed, deeper⟩
  super name above := by
    obtain ⟨source, found⟩ := above
    obtain ⟨info, entry, parent⟩ := Option.bind_eq_some_iff.mp found
    have listed := Outcome.lookup_mem entry
    refine List.mem_flatMap.mpr ⟨name, List.mem_append_right _ ?_, nameLayers_self _ _⟩
    exact List.mem_filterMap.mpr ⟨(source, info), listed, parent⟩

theorem mem_slotsOf {values : List FrameValue} {value : FrameValue}
    (member : value ∈ Frame.slotsOf values) : value = .uninitialized ∨ value ∈ values := by
  induction values with
  | nil => simp [Frame.slotsOf] at member
  | cons first rest ih =>
      simp only [Frame.slotsOf, List.cons_append, List.mem_cons, List.mem_append,
        List.mem_replicate] at member ⊢
      grind

/-- The frame a method starts with mentions its class and its parameters only. -/
theorem entry_named {frame : Frame} (entered : Frame.entry owner method = .ok frame) :
    frame.Named (possibleNames hierarchy owner method) := by
  simp only [Frame.entry, Outcome.bind_eq_ok] at entered
  obtain ⟨type, typed, entered⟩ := entered
  split at entered
  · exact absurd entered Outcome.throw_bind_ne_ok
  cases Outcome.pure_eq_ok.mp entered
  refine ⟨?_, by simp⟩
  have free : FrameValue.uninitialized.Named (possibleNames hierarchy owner method) := by
    simp [FrameValue.Named]
  intro value member
  rcases List.mem_append.mp member with argument | rest
  · rcases mem_slotsOf argument with rfl | argument
    · exact free
    rcases List.mem_append.mp argument with receiver | parameter
    · intro name same
      split at receiver
      · simp at receiver
      · rw [List.mem_singleton.mp receiver] at same
        cases same
        exact given_possible (by simp [givenNames])
    · obtain ⟨declared, listed, made⟩ := List.mem_filterMap.mp parameter
      obtain ⟨kind, stored, rfl⟩ := Option.map_eq_some_iff.mp made
      refine FrameValue.named_ofKind fun reference => given_possible ?_
      have is_reference : declared.isReference = true := by
        cases declared <;> simp_all [ValueType.kind, ValueType.isReference]
      have named : declared.internalName ∈ type.parameters.flatMap typeNames :=
        List.mem_flatMap.mpr ⟨declared, listed, by simp [typeNames, is_reference]⟩
      rw [ofDescriptor, Outcome.mapError_eq_ok] at typed
      simp [givenNames, typed, Except.toOption, named]
  · rw [(List.mem_replicate.mp rest).2]
    exact free

end Analysis

end StackCoroutine
