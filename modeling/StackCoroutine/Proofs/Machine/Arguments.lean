import StackCoroutine.Instrument.Detection
import StackCoroutine.Proofs.Descriptor.Grammar
import StackCoroutine.Proofs.Frame.Describing
import StackCoroutine.Proofs.Instrument.Detected
import StackCoroutine.Proofs.Machine.Verified

/-!
Where the arguments of a method are. The analysis, the machine and the search for continuation points
each add up the sizes of the parameters for themselves; all three come to the same slots.
-/

namespace StackCoroutine

/-- The slots taken by the first of several values. -/
def slotsBefore (sizes : List Nat) (index : Nat) : Nat := (sizes.take index).sum

@[simp]
theorem slotsBefore_zero (sizes : List Nat) : slotsBefore sizes 0 = 0 := by simp [slotsBefore]

@[simp]
theorem slotsBefore_succ (first : Nat) (rest : List Nat) (index : Nat) :
    slotsBefore (first :: rest) (index + 1) = first + slotsBefore rest index := by
  simp [slotsBefore]

namespace Frame

/-- Every entry stands in the slot behind those of the entries before it. -/
theorem slotsOf_at {entries : List FrameValue} {index : Nat} (inside : index < entries.length) :
    (slotsOf entries)[slotsBefore (entries.map FrameValue.size) index]? = entries[index]? := by
  have place := slotsOf_getElem? (entries.take index) (entries.drop (index + 1)) entries[index]
  rw [List.getElem_cons_drop, List.take_append_drop] at place
  rw [slotsBefore, ← List.map_take, place, List.getElem?_eq_getElem inside]

/-- All other slots are uninitialized. -/
theorem slotsOf_initialized {entries : List FrameValue} {slot : Nat} {entry : FrameValue}
    (there : (slotsOf entries)[slot]? = some entry) (initialized : entry ≠ .uninitialized) :
    ∃ index < entries.length, slot = slotsBefore (entries.map FrameValue.size) index := by
  induction entries generalizing slot with
  | nil => simp [slotsOf] at there
  | cons first rest ih =>
      rcases slotsOf_cons there initialized with ⟨rfl, _⟩ | ⟨past, later⟩
      · exact ⟨0, by simp, by simp⟩
      · obtain ⟨index, inside, place⟩ := ih later
        refine ⟨index + 1, by simpa using inside, ?_⟩
        rw [List.map_cons, slotsBefore_succ]
        omega

end Frame

namespace Activation

/-- Every argument is placed in the slot behind those of the arguments before it, and all other slots
are left alone. -/
theorem placeArguments_places {fault : MachineError} {values : List Value} {sizes : List Nat}
    (positive : ∀ size ∈ sizes, 0 < size) (same : values.length = sizes.length) {start : Nat}
    {locals placed : List Value}
    (done : placeArguments fault start locals (values.zip sizes) = .ok placed) :
    (∀ index < values.length, placed[start + slotsBefore sizes index]? = values[index]?) ∧
      ∀ slot, (∀ index < values.length, slot ≠ start + slotsBefore sizes index) →
        placed[slot]? = locals[slot]? := by
  -- Later arguments go to later slots, so what is placed first is not written again.
  induction values generalizing sizes start locals with
  | nil =>
      cases done
      exact ⟨by simp, fun _ _ => rfl⟩
  | cons first rest ih =>
      obtain _ | ⟨size, others⟩ := sizes
      · simp at same
      rw [List.zip_cons_cons, placeArguments] at done
      split at done
      · rename_i room
        have here : 0 < size := positive size List.mem_cons_self
        obtain ⟨behind, alone⟩ := ih (fun other member => positive other (List.mem_cons_of_mem _ member))
          (by simpa using same) done
        constructor
        · intro index inside
          cases index with
          | zero =>
              rw [slotsBefore_zero, Nat.add_zero, alone start (by intros; omega)]
              simp [room]
          | succ index =>
              rw [slotsBefore_succ, ← Nat.add_assoc]
              exact behind index (by simpa using inside)
        · intro slot apart
          have first := apart 0 (by simp)
          rw [slotsBefore_zero, Nat.add_zero] at first
          rw [alone slot, List.getElem?_set_ne (Ne.symm first)]
          intro index inside
          have later := apart (index + 1) (by simpa using inside)
          rwa [slotsBefore_succ, ← Nat.add_assoc] at later
      · cases done

end Activation

/-- The slots of the receiver and of each parameter. -/
def Method.sizes (method : Method) (type : MethodType) : List Nat :=
  List.replicate method.receiverSlots 1 ++ type.parameters.map ValueType.size

/-- The slot of a parameter is behind the receiver and the parameters before it. -/
def Method.parameterSlot (method : Method) (type : MethodType) (index : Nat) : Nat :=
  method.receiverSlots + MethodType.slotsOf (type.parameters.take index)

section Layout

variable {method : Method} {type : MethodType}

theorem Method.sizes_sum (method : Method) (type : MethodType) :
    (method.sizes type).sum = method.receiverSlots + type.parameterSlots := by
  simp [Method.sizes, MethodType.parameterSlots, MethodType.slotsOf_eq]

theorem Method.sizes_length (method : Method) (type : MethodType) :
    (method.sizes type).length = method.receiverSlots + type.parameters.length := by
  simp [Method.sizes]

theorem Method.sizes_positive (typed : method.type = .ok type) :
    ∀ size ∈ method.sizes type, 0 < size := by
  intro size member
  rcases List.mem_append.mp member with receiver | parameter
  · simp [(List.mem_replicate.mp receiver).2]
  · obtain ⟨type, known, rfl⟩ := List.mem_map.mp parameter
    exact MethodType.parse_parameters typed type known

theorem Method.parameterSlot_eq (index : Nat) :
    method.parameterSlot type index =
      slotsBefore (method.sizes type) (method.receiverSlots + index) := by
  simp [Method.parameterSlot, slotsBefore, Method.sizes, List.take_append, List.take_replicate,
    MethodType.slotsOf_eq]

/-- The values passed are the receiver, if there is one, and the arguments. -/
theorem Method.passed_cases {index : Nat} (inside : index < (method.sizes type).length) :
    method.isStatic = false ∧ slotsBefore (method.sizes type) index = 0 ∨
      ∃ parameter < type.parameters.length,
        slotsBefore (method.sizes type) index = method.parameterSlot type parameter := by
  rw [method.sizes_length] at inside
  by_cases receiver : index < method.receiverSlots
  · left
    unfold Method.receiverSlots at receiver
    split at receiver
    · omega
    · rename_i dynamic
      obtain rfl : index = 0 := by omega
      exact ⟨by simpa using dynamic, slotsBefore_zero _⟩
  · right
    refine ⟨index - method.receiverSlots, by omega, ?_⟩
    rw [Method.parameterSlot_eq]
    congr 1
    omega

/-- Every parameter has its entry among those of the parameters. -/
theorem Frame.parameters_at {types : List ValueType} (proper : ∀ type ∈ types, 0 < type.size)
    (index : Nat) :
    (types.filterMap FrameValue.ofType?)[index]? = types[index]?.bind FrameValue.ofType? := by
  induction types generalizing index with
  | nil => rfl
  | cons first rest ih =>
      have size := proper first List.mem_cons_self
      have later := ih fun type member => proper type (List.mem_cons_of_mem _ member)
      cases kind : first.kind with
      | none => simp [ValueType.size, kind] at size
      | some kind =>
          cases index with
          | zero => simp [FrameValue.ofType?, kind]
          | succ index => simp [FrameValue.ofType?, kind, later]

theorem Frame.arguments_at {owner : String} (typed : method.type = .ok type) {index : Nat}
    {parameter : ValueType} (here : type.parameters[index]? = some parameter) :
    (arguments owner method type)[method.receiverSlots + index]? =
      FrameValue.ofType? parameter := by
  have declared := parameters_at (MethodType.parse_parameters typed) index
  rw [here, Option.bind_some] at declared
  unfold arguments Method.receiverSlots
  cases method.isStatic <;> simp [declared, Nat.add_comm 1]

/-- The first frame has the receiver and the parameters in their slots, and nothing in any other. -/
theorem Frame.entry_places (owner : String) (typed : method.type = .ok type)
    (room : method.receiverSlots + type.parameterSlots ≤ method.maxLocals.toNat) :
    ∃ frame, entry owner method = .ok frame ∧ frame.locals.length = method.maxLocals.toNat ∧
      (∀ index < (method.sizes type).length,
        frame.locals[slotsBefore (method.sizes type) index]? =
          (arguments owner method type)[index]?) ∧
      ∀ slot value, frame.locals[slot]? = some value → value ≠ .uninitialized →
        ∃ index < (method.sizes type).length, slot = slotsBefore (method.sizes type) index := by
  have sizes : (arguments owner method type).map FrameValue.size = method.sizes type :=
    arguments_each typed
  have count : (method.sizes type).length = (arguments owner method type).length := by
    rw [← sizes, List.length_map]
  have made : entry owner method = .ok
      ⟨slotsOf (arguments owner method type) ++ List.replicate
        (method.maxLocals.toNat - (method.receiverSlots + type.parameterSlots)) .uninitialized,
        []⟩ := by
    simp [entry, typed, ofDescriptor, Except.mapError, bind, Except.bind, pure, Except.pure,
      Nat.not_lt.mpr room]
  refine ⟨_, made, ?_, ?_, ?_⟩
  · obtain ⟨_, _, _, length, _⟩ := entry_eq_ok made
    exact length
  · intro index inside
    rw [count] at inside
    have place := slotsOf_at inside
    rw [sizes] at place
    obtain ⟨within, _⟩ := List.getElem?_eq_some_iff.mp (place.trans (List.getElem?_eq_getElem inside))
    rw [List.getElem?_append_left within, place]
  · intro slot value there initialized
    rw [List.getElem?_append] at there
    split at there
    · rw [← sizes, List.length_map]
      exact slotsOf_initialized there initialized
    · exact absurd (List.eq_of_mem_replicate (List.mem_of_getElem? there)) initialized

end Layout

/-- An invocation with as many arguments as its method takes begins, with the arguments in their slots
and null in all others. -/
theorem Activation.enter_places {prepared : PreparedMethod} {type : MethodType}
    {arguments : List Value} (typed : prepared.method.type = .ok type)
    (parameters : prepared.parameters = type.parameters)
    (room : prepared.method.receiverSlots + type.parameterSlots ≤ prepared.method.maxLocals.toNat)
    (count : arguments.length = prepared.method.receiverSlots + type.parameters.length) :
    ∃ activation, enter prepared arguments = .ok activation ∧
      activation.locals.length = prepared.method.maxLocals.toNat ∧
      (∀ index < (prepared.method.sizes type).length,
        activation.locals[slotsBefore (prepared.method.sizes type) index]? = arguments[index]?) ∧
      ∀ slot < prepared.method.maxLocals.toNat,
        (∀ index < (prepared.method.sizes type).length,
          slot ≠ slotsBefore (prepared.method.sizes type) index) →
        activation.locals[slot]? = some .null := by
  have positive := Method.sizes_positive typed
  have same : arguments.length = (prepared.method.sizes type).length := by
    rw [count, Method.sizes_length]
  obtain ⟨locals, placed, length⟩ : ∃ locals,
      placeArguments (.type (.tooFewLocals prepared.displayName)) 0
        (List.replicate prepared.method.maxLocals.toNat .null)
        (arguments.zip (prepared.method.sizes type)) = .ok locals ∧
      locals.length = (List.replicate prepared.method.maxLocals.toNat Value.null).length :=
    Machine.placeArguments_ok (fun item member => positive _ (List.of_mem_zip member).2) (by
      rw [List.map_snd_zip (Nat.le_of_eq same.symm), Method.sizes_sum]
      simpa using room)
  have entered : enter prepared arguments = .ok ⟨prepared, 0, locals, []⟩ := by
    rw [Method.sizes] at placed
    simp [enter, parameters, count, Nat.add_comm, placed]
  obtain ⟨held, alone⟩ := placeArguments_places positive same placed
  simp only [Nat.zero_add] at held alone
  rw [List.length_replicate] at length
  rw [← same]
  refine ⟨_, entered, length, held, ?_⟩
  intro slot inside apart
  rw [alone slot apart]
  simp [inside]

/-- A reference of the declared type can stand where a context is expected. -/
def ValueType.TakesContext (hierarchy : Hierarchy) (type : ValueType) : Prop :=
  type.isReference = true ∧
    hierarchy.isAssignable Protocol.contextClass type.internalName = true

theorem ValueType.array_takes_no_context (hierarchy : Hierarchy) (element : ValueType) :
    ¬ (ValueType.array element).TakesContext hierarchy := by
  rintro ⟨_, takes⟩
  have plain : ¬ Bracketed Protocol.contextClass := by
    unfold Bracketed
    decide +kernel
  have bracketed : Bracketed (ValueType.array element).internalName :=
    bracketed_iff.mpr
      ⟨element.descriptorChars, by simp [internalName, descriptor, descriptorChars]⟩
  have different : Protocol.contextClass ≠ (ValueType.array element).internalName :=
    fun same => plain (same ▸ bracketed)
  obtain ⟨_, _, denotes, _⟩ :=
    (Hierarchy.isAssignable_array bracketed different (by decide)).mp takes
  exact plain (Hierarchy.bracketed_of_array denotes)

/-- The parameter found is the first that takes a context. -/
theorem contextParameter?_first {hierarchy : Hierarchy} {type : MethodType} {index : Nat}
    (found : contextParameter? hierarchy type = some index) :
    ∃ parameter, type.parameters[index]? = some parameter ∧ parameter.TakesContext hierarchy ∧
      ∀ earlier ∈ type.parameters.take index, ¬ earlier.TakesContext hierarchy := by
  obtain ⟨inside, takes, first⟩ := List.findIdx?_eq_some_iff_getElem.mp found
  refine ⟨type.parameters[index], List.getElem?_eq_getElem inside, ?_, ?_⟩
  · generalize type.parameters[index] = parameter at takes
    cases parameter with
    | object name => exact ⟨rfl, takes⟩
    | _ => cases takes
  · intro earlier member
    obtain ⟨place, before, rfl⟩ := List.mem_take_iff_getElem.mp member
    have refused := first place (by omega)
    -- The search asks for a class; of the other references, arrays take no context.
    generalize type.parameters[place] = earlier at refused
    cases earlier with
    | object name => exact fun takes => refused takes.2
    | array element => exact ValueType.array_takes_no_context hierarchy element
    | _ => rintro ⟨⟨⟩, _⟩

theorem contextSlot?_first {hierarchy : Hierarchy} {method : Method} {type : MethodType}
    {slot : UInt16} (found : contextSlot? hierarchy method type = some slot) :
    ∃ index, contextParameter? hierarchy type = some index ∧
      slot.toNat = method.parameterSlot type index := by
  obtain ⟨index, first, rest⟩ := Option.bind_eq_some_iff.mp found
  dsimp only at rest
  split at rest
  · cases rest
    refine ⟨index, first, ?_⟩
    rw [UInt16.toNat_ofNat', Method.parameterSlot]
    omega
  · cases rest

theorem Frame.arguments_initialized {owner : String} {method : Method} {type : MethodType}
    {value : FrameValue} (member : value ∈ arguments owner method type) :
    value ≠ .uninitialized := by
  rcases List.mem_append.mp member with receiver | parameter
  · split at receiver
    · cases receiver
    · rw [List.mem_singleton.mp receiver]
      nofun
  · obtain ⟨type, _, declared⟩ := List.mem_filterMap.mp parameter
    obtain ⟨kind, _, rfl⟩ := Option.map_eq_some_iff.mp declared
    intro lost
    have kept := FrameValue.ofKind_kind kind type.internalName
    rw [lost] at kept
    cases kept

/-- An invocation with as many arguments as its method takes begins. Receiver and arguments are in the
slots in which the first frame of the analysis has the receiver and the parameters; the other slots are
uninitialized there, and null when the invocation begins. The slot in which the context is looked for is
that of the first argument whose parameter takes a context. -/
theorem parameter_layouts_agree {prepared : PreparedMethod} {type : MethodType} {slots : Nat}
    {arguments : List Value} (typed : prepared.method.type = .ok type)
    (parameters : prepared.parameters = type.parameters)
    (counted : prepared.method.argumentSlots = .ok slots)
    (room : slots ≤ prepared.method.maxLocals.toNat)
    (count : arguments.length = prepared.method.receiverSlots + type.parameters.length) :
    ∃ activation frame, Activation.enter prepared arguments = .ok activation ∧
      Frame.entry prepared.owner prepared.method = .ok frame ∧
      activation.locals.length = frame.locals.length ∧
      (prepared.method.isStatic = false →
        activation.locals[0]? = arguments[0]? ∧
          frame.locals[0]? = some (.reference prepared.owner)) ∧
      (∀ index parameter, type.parameters[index]? = some parameter →
        activation.locals[prepared.method.parameterSlot type index]? =
            arguments[prepared.method.receiverSlots + index]? ∧
          frame.locals[prepared.method.parameterSlot type index]? =
            FrameValue.ofType? parameter) ∧
      (∀ slot value, frame.locals[slot]? = some value → value ≠ .uninitialized →
        prepared.method.isStatic = false ∧ slot = 0 ∨
          ∃ index < type.parameters.length, slot = prepared.method.parameterSlot type index) ∧
      (∀ slot : Nat, frame.locals[slot]? = some .uninitialized →
        activation.locals[slot]? = some .null) ∧
      ∀ hierarchy slot, contextSlot? hierarchy prepared.method type = some slot →
        ∃ index parameter, type.parameters[index]? = some parameter ∧
          parameter.TakesContext hierarchy ∧
          (∀ earlier ∈ type.parameters.take index, ¬ earlier.TakesContext hierarchy) ∧
          slot.toNat = prepared.method.parameterSlot type index ∧
          activation.locals[slot.toNat]? =
            arguments[prepared.method.receiverSlots + index]? := by
  have taken : slots = prepared.method.receiverSlots + type.parameterSlots := by
    rw [Method.argumentSlots, typed] at counted
    cases counted
    rfl
  rw [taken] at room
  have sizes := prepared.method.sizes_length type
  -- Both layouts are the sums of the sizes before a place, once for values and once for entries.
  obtain ⟨activation, entered, length, held, empty⟩ :=
    Activation.enter_places typed parameters room count
  obtain ⟨frame, entry, length', recorded, others⟩ :=
    Frame.entry_places prepared.owner typed room
  have parameter_held : ∀ index < type.parameters.length,
      activation.locals[prepared.method.parameterSlot type index]? =
        arguments[prepared.method.receiverSlots + index]? := by
    intro index inside
    rw [Method.parameterSlot_eq]
    exact held _ (by omega)
  refine ⟨activation, frame, entered, entry, length.trans length'.symm, ?_, ?_, ?_, ?_, ?_⟩
  · intro dynamic
    have receiver : prepared.method.receiverSlots = 1 := by simp [Method.receiverSlots, dynamic]
    have here := held 0 (by omega)
    have there := recorded 0 (by omega)
    rw [slotsBefore_zero] at here there
    refine ⟨here, ?_⟩
    rw [there]
    simp [Frame.arguments, dynamic]
  · intro index parameter here
    obtain ⟨inside, _⟩ := List.getElem?_eq_some_iff.mp here
    refine ⟨parameter_held index inside, ?_⟩
    rw [Method.parameterSlot_eq, recorded _ (by omega)]
    exact Frame.arguments_at typed here
  · intro slot value there initialized
    obtain ⟨index, inside, rfl⟩ := others slot value there initialized
    exact Method.passed_cases inside
  · intro slot lost
    obtain ⟨inside, _⟩ := List.getElem?_eq_some_iff.mp lost
    refine empty slot (by omega) ?_
    rintro index within rfl
    have there := (recorded index within).symm.trans lost
    exact Frame.arguments_initialized (List.mem_of_getElem? there) rfl
  · intro hierarchy slot found
    obtain ⟨index, first, place⟩ := contextSlot?_first found
    obtain ⟨parameter, here, takes, earlier⟩ := contextParameter?_first first
    obtain ⟨inside, _⟩ := List.getElem?_eq_some_iff.mp here
    exact ⟨index, parameter, here, takes, earlier, place, place ▸ parameter_held index inside⟩

/-- An instance method with parameters of one and two slots around its context. -/
def mixedParameters : PreparedMethod :=
  { owner := "demo/Worker"
    method :=
      { access := 0, name := "work"
        descriptor := "(J[DLresumable/SuspendableContext;D)V"
        maxStack := 0, maxLocals := 9, code := [.return none], tryBlocks := [] }
    code := #[.return none]
    labels := []
    handlers := []
    parameters := [.long, .array .double, .object Protocol.contextClass, .double] }

theorem parameter_layouts_agree_mixed :
    mixedParameters.method.argumentSlots = .ok 7 ∧
      ∃ activation, Activation.enter mixedParameters
          [.ref ⟨4⟩, .long 1, .null, .context, .double .zero] = .ok activation ∧
        activation.locals[4]? = some .context := by
  have spelled : mixedParameters.method.type =
      .ok ⟨mixedParameters.parameters, .void⟩ :=
    MethodType.parse_eq_ok.mpr ⟨by decide, rfl⟩
  have counted : mixedParameters.method.argumentSlots = .ok 7 := by
    rw [Method.argumentSlots, spelled]
    rfl
  obtain ⟨activation, _, entered, _, _, _, held, _⟩ := parameter_layouts_agree spelled rfl counted
    (by decide) (show [Value.ref ⟨4⟩, .long 1, .null, .context, .double .zero].length = 5 from rfl)
  exact ⟨counted, activation, entered, (held 2 _ rfl).1⟩

end StackCoroutine
