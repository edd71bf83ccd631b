import StackCoroutine.Proofs.Instrument.Pieces

/-!
Typing of the code that moves the values of a frame into arrays and back. Saving the whole stack
leaves it empty, and loading it brings back every category; loading the locals makes known again all
that the frame knew of them.
-/

namespace StackCoroutine

/-- Categories of the entries that hold values. -/
def entryKinds (entries : List (Option StoredValue)) : List Kind :=
  entries.filterMap fun entry => entry.map StoredValue.kind

theorem storedValues_kinds (values : List FrameValue) :
    (storedValues values).map (fun entry => entry.map StoredValue.kind) =
      values.map FrameValue.kind := by
  induction values with
  | nil => rfl
  | cons value earlier ih =>
      rw [storedValues, List.map_cons, List.map_cons, ih]
      cases value.kind <;> rfl

theorem storedValues_length (values : List FrameValue) :
    (storedValues values).length = values.length := by
  have same := congrArg List.length (storedValues_kinds values)
  simpa using same

/-- A stored value is one of the list, in the array of its category. -/
theorem mem_storedValues {values : List FrameValue} {stored : StoredValue}
    (member : some stored ∈ storedValues values) :
    stored.value ∈ values ∧ stored.value.kind = some stored.kind := by
  induction values with
  | nil => cases member
  | cons value earlier ih =>
      rw [storedValues] at member
      rcases List.mem_cons.mp member with here | there
      · obtain ⟨kind, has, rfl⟩ := Option.map_eq_some_iff.mp here.symm
        exact ⟨List.mem_cons_self, has⟩
      · exact ⟨List.mem_cons_of_mem _ (ih there).1, (ih there).2⟩

theorem mem_presentKinds {values : List FrameValue} {value : FrameValue} {kind : Kind}
    (member : value ∈ values) (has : value.kind = some kind) :
    kind ∈ SlotLayout.presentKinds values := by
  refine List.mem_filter.mpr ⟨SlotLayout.mem_all kind, ?_⟩
  have counted : 0 < countKind kind values :=
    List.countP_pos_iff.mpr ⟨value, member, by simp [FrameValue.hasKind, has]⟩
  simpa using counted

theorem entryKinds_take {values : List FrameValue} {kinds : List Kind}
    (useful : values.map FrameValue.kind = kinds.map some) (count : Nat) :
    entryKinds ((storedValues values).take count) = kinds.take count := by
  have same := congrArg (List.take count) (storedValues_kinds values)
  rw [useful, ← List.map_take, ← List.map_take] at same
  have filtered := congrArg (List.filterMap id) same
  simpa [entryKinds, List.filterMap_map, Function.comp_def] using filtered

theorem entryKinds_drop {values : List FrameValue} {kinds : List Kind}
    (useful : values.map FrameValue.kind = kinds.map some) (count : Nat) :
    entryKinds ((storedValues values).drop count) = kinds.drop count := by
  have same := congrArg (List.drop count) (storedValues_kinds values)
  rw [useful, ← List.map_drop, ← List.map_drop] at same
  have filtered := congrArg (List.filterMap id) same
  simpa [entryKinds, List.filterMap_map, Function.comp_def] using filtered

/-- The places of locals in the order of their slots. -/
theorem storedValues_reverse (locals : List FrameValue) :
    (storedValues locals.reverse).reverse.map
        (fun entry => entry.map fun stored => (stored.value, stored.kind)) =
      locals.map fun value => value.kind.map fun kind => (value, kind) := by
  have listed : ∀ values : List FrameValue,
      (storedValues values).map (fun entry => entry.map fun stored => (stored.value, stored.kind)) =
        values.map fun value => value.kind.map fun kind => (value, kind) := by
    intro values
    induction values with
    | nil => rfl
    | cons value earlier ih =>
        rw [storedValues, List.map_cons, List.map_cons, ih]
        cases value.kind <;> rfl
  rw [List.map_reverse, listed, List.map_reverse, List.reverse_reverse]

/-- The stored locals are the slots that hold a value. -/
theorem mem_storedLocals {locals : List FrameValue} (small : locals.length ≤ 65535)
    {item : StoredValue × UInt16} (member : item ∈ storedLocals locals) :
    locals[item.2.toNat]? = some item.1.value ∧ item.1.value.kind = some item.1.kind := by
  obtain ⟨⟨entry, slot⟩, listed, found⟩ := List.mem_filterMap.mp member
  obtain ⟨stored, rfl, rfl⟩ := Option.map_eq_some_iff.mp found
  have there := List.mem_zipIdx_iff_getElem?.mp listed
  have place := congrArg (fun entries => entries[slot]?) (storedValues_reverse locals)
  simp only [List.getElem?_map, there, Option.map_some] at place
  obtain ⟨value, here, same⟩ := Option.map_eq_some_iff.mp place.symm
  obtain ⟨kind, has, same⟩ := Option.map_eq_some_iff.mp same
  cases same
  obtain ⟨inside, _⟩ := List.getElem?_eq_some_iff.mp here
  have number : (UInt16.ofNat slot).toNat = slot := by
    rw [UInt16.toNat_ofNat']
    omega
  simp only [number]
  exact ⟨here, has⟩

theorem storedLocals_complete {locals : List FrameValue} (small : locals.length ≤ 65535)
    {place : Nat} {kind : Kind}
    (known : (locals.map FrameValue.kind)[place]? = some (some kind)) :
    ∃ item ∈ storedLocals locals, (item.2.toNat, item.1.kind) = (place, kind) := by
  rw [List.getElem?_map] at known
  obtain ⟨value, here, has⟩ := Option.map_eq_some_iff.mp known
  have entries := congrArg (fun entries => entries[place]?) (storedValues_reverse locals)
  simp only [List.getElem?_map, here, has, Option.map_some] at entries
  obtain ⟨entry, there, same⟩ := Option.map_eq_some_iff.mp entries
  obtain ⟨stored, rfl, pair⟩ := Option.map_eq_some_iff.mp same
  cases pair
  obtain ⟨inside, _⟩ := List.getElem?_eq_some_iff.mp here
  refine ⟨(stored, UInt16.ofNat place), ?_, ?_⟩
  · exact List.mem_filterMap.mpr
      ⟨(some stored, place), List.mem_zipIdx_iff_getElem?.mpr there, rfl⟩
  · have number : (UInt16.ofNat place).toNat = place := by
      rw [UInt16.toNat_ofNat']
      omega
    simp only [number]

namespace SlotLayout

/-- The array variables for values, as local slots with references. -/
def arrayFacts (arrayOf : Kind → Variable) (values : List FrameValue) : Set (Nat × Kind) :=
  {fact | ∃ kind ∈ presentKinds values, (arrayOf kind).fact = fact}

/-- The array variables for a frame. -/
def frameFacts (layout : SlotLayout) (frame : Frame) : Set (Nat × Kind) :=
  arrayFacts layout.localsArray frame.locals ∪ arrayFacts layout.stackArray frame.stack

end SlotLayout

/-- A layout serves to store a frame: there is a reference variable for every array, all of them get
along with the frame, and its references have names of types. -/
structure Storable (limit : Nat) (layout : SlotLayout) (all : Set (Nat × Kind)) (frame : Frame) :
    Prop extends layout.Placed limit all where
  own : frame.facts ⊆ all
  arrays : layout.frameFacts frame ⊆ all
  localsArray : ∀ kind ∈ SlotLayout.presentKinds frame.locals,
    (layout.localsArray kind).kind = .ref
  stackArray : ∀ kind ∈ SlotLayout.presentKinds frame.stack, (layout.stackArray kind).kind = .ref
  small : frame.locals.length ≤ 65535
  named : ∀ name, .reference name ∈ frame.locals ++ frame.stack →
    ∃ type, ValueType.ofInternalName name = .ok type

theorem Signature.ofInsn_checkCast {result : Option Kind} {name : String} {type : ValueType}
    (denotes : ValueType.ofInternalName name = .ok type) :
    Signature.ofInsn result (.checkCast name) = some ⟨[.ref], some .ref⟩ := by
  show (ValueType.ofInternalName name).toOption.map (fun _ => Signature.mk [.ref] (some .ref)) = _
  rw [denotes]
  rfl

theorem Kind.arrayType_denotes (kind : Kind) :
    ValueType.ofInternalName kind.arrayType.internalName = .ok kind.arrayType := by
  cases kind <;> decide +kernel

namespace Types

variable {scheme : Scheme} {base all facts : Set (Nat × Kind)} {stack : List Kind}
  {layout : SlotLayout} {frame : Frame}

/-- Loading a stored value pushes a value of its category. -/
theorem loadStored {stored : StoredValue} {array : Variable}
    (has : stored.value.kind = some stored.kind) (reference : array.kind = .ref)
    (known : array.fact ∈ facts) (covered : base ⊆ facts)
    (named : ∀ name, stored.value = .reference name →
      ∃ type, ValueType.ofInternalName name = .ok type) :
    Types scheme base (some ⟨facts, stack⟩) (stored.load array)
      (some ⟨facts, stored.kind :: stack⟩) := by
  have element : ∀ kind, Types scheme base (some ⟨facts, stack⟩)
      [array.load, .intConst (Int32.ofNat stored.index), .arrayLoad kind]
      (some ⟨facts, kind :: stack⟩) := by
    intro kind
    refine cons (load reference known covered) ?_
    refine cons (push rfl rfl covered) ?_
    exact binary rfl rfl covered
  obtain ⟨value, kind, index⟩ := stored
  cases value with
  | null =>
      cases has
      exact push rfl rfl covered
  | reference name =>
      cases has
      obtain ⟨type, denotes⟩ := named name rfl
      refine (element .ref).append ?_
      split
      · exact nil (.refl _)
      · exact unary (Signature.ofInsn_checkCast denotes) rfl covered
  | uninitialized => cases has
  | int | float | long | double =>
      cases has
      exact element _

theorem allocate (usable : Usable scheme.limit all) {arrayOf : Kind → Variable}
    {sizes : PerKind Nat} {values : List FrameValue}
    (references : ∀ kind ∈ SlotLayout.presentKinds values, (arrayOf kind).kind = .ref)
    (arrays : SlotLayout.arrayFacts arrayOf values ⊆ all) (covered : base ⊆ facts)
    (within : facts ⊆ all) :
    Types scheme base (some ⟨facts, stack⟩) (SlotLayout.allocate arrayOf sizes values)
      (some ⟨facts ∪ SlotLayout.arrayFacts arrayOf values, stack⟩) := by
  refine flatMap_store covered within (fun kind present => arrays ⟨kind, present, rfl⟩) ?_
  intro kind present known above below
  have known_base := covered.trans above
  refine cons (push rfl rfl known_base) ?_
  refine cons (unary rfl rfl known_base) ?_
  exact store usable (references kind present) (arrays ⟨kind, present, rfl⟩) known_base below

/-- Entries go from the stack into their arrays. -/
theorem saveEntries {entries : List (Option StoredValue)} (covered : base ⊆ facts)
    (arrays : ∀ stored, some stored ∈ entries → (layout.stackArray stored.kind).kind = .ref ∧
      (layout.stackArray stored.kind).fact ∈ facts) :
    Types scheme base (some ⟨facts, entryKinds entries ++ stack⟩)
      (entries.flatMap fun
        | none => []
        | some stored =>
            [(layout.stackArray stored.kind).load, .swap, .intConst (Int32.ofNat stored.index),
              .swap, .arrayStore stored.kind])
      (some ⟨facts, stack⟩) := by
  induction entries with
  | nil => exact nil (.refl _)
  | cons entry rest ih =>
      have later := ih fun stored member => arrays stored (List.mem_cons_of_mem _ member)
      rw [List.flatMap_cons]
      cases entry with
      | none => exact later
      | some stored =>
          obtain ⟨reference, known⟩ := arrays stored List.mem_cons_self
          refine append ?_ later
          refine cons (load reference known covered) ?_
          refine cons (swap covered) ?_
          refine cons (push rfl rfl covered) ?_
          refine cons (swap covered) ?_
          exact consumeThree rfl rfl covered

/-- Entries come from their arrays back onto the stack. -/
theorem pushAll {entries : List (Option StoredValue)} (covered : base ⊆ facts)
    (ready : ∀ stored, some stored ∈ entries → stored.value.kind = some stored.kind ∧
      (layout.stackArray stored.kind).kind = .ref ∧
      (layout.stackArray stored.kind).fact ∈ facts ∧
      ∀ name, stored.value = .reference name → ∃ type, ValueType.ofInternalName name = .ok type) :
    Types scheme base (some ⟨facts, stack⟩) (layout.pushAll entries)
      (some ⟨facts, entryKinds entries ++ stack⟩) := by
  induction entries with
  | nil => exact nil (.refl _)
  | cons entry rest ih =>
      have earlier := ih fun stored member => ready stored (List.mem_cons_of_mem _ member)
      have unfolded : layout.pushAll (entry :: rest) =
          layout.pushAll rest ++ layout.pushAll [entry] := by
        simp [SlotLayout.pushAll]
      rw [unfolded]
      refine earlier.append ?_
      cases entry with
      | none => exact nil (.refl _)
      | some stored =>
          obtain ⟨has, reference, known, named⟩ := ready stored List.mem_cons_self
          have loaded : Types scheme base (some ⟨facts, entryKinds rest ++ stack⟩)
              (stored.load (layout.stackArray stored.kind))
              (some ⟨facts, stored.kind :: (entryKinds rest ++ stack)⟩) :=
            loadStored has reference known covered named
          have alone : layout.pushAll [some stored] =
              stored.load (layout.stackArray stored.kind) := by
            simp [SlotLayout.pushAll]
          rw [alone]
          exact loaded

end Types

namespace Storable

variable {scheme : Scheme} {base all facts : Set (Nat × Kind)} {stack : List Kind}
  {layout : SlotLayout} {frame : Frame}

theorem allocateStack (storable : Storable scheme.limit layout all frame) (covered : base ⊆ facts)
    (within : facts ⊆ all) :
    Types scheme base (some ⟨facts, stack⟩) (layout.allocateStack frame.stack)
      (some ⟨facts ∪ SlotLayout.arrayFacts layout.stackArray frame.stack, stack⟩) :=
  Types.allocate storable.usable storable.stackArray
    (Set.subset_union_right.trans storable.arrays) covered within

theorem allocateLocals (storable : Storable scheme.limit layout all frame) (covered : base ⊆ facts)
    (within : facts ⊆ all) :
    Types scheme base (some ⟨facts, stack⟩) (layout.allocateLocals frame.locals)
      (some ⟨facts ∪ SlotLayout.arrayFacts layout.localsArray frame.locals, stack⟩) :=
  Types.allocate storable.usable storable.localsArray
    (Set.subset_union_left.trans storable.arrays) covered within

/-- The array of a stored stack entry is there. -/
theorem entryArray (storable : Storable scheme.limit layout all frame)
    (arrays : SlotLayout.arrayFacts layout.stackArray frame.stack ⊆ facts) {value : FrameValue}
    {kind : Kind} (member : value ∈ frame.stack) (has : value.kind = some kind) :
    (layout.stackArray kind).kind = .ref ∧ (layout.stackArray kind).fact ∈ facts := by
  have present := mem_presentKinds member has
  exact ⟨storable.stackArray kind present, arrays ⟨kind, present, rfl⟩⟩

/-- Entries of a part of the stack go into their arrays. -/
theorem saveStack (storable : Storable scheme.limit layout all frame) (covered : base ⊆ facts)
    (arrays : SlotLayout.arrayFacts layout.stackArray frame.stack ⊆ facts)
    {values : List FrameValue} (part : values ⊆ frame.stack) {kinds : List Kind}
    (useful : values.map FrameValue.kind = kinds.map some) (count : Nat) :
    Types scheme base (some ⟨facts, kinds.take count ++ stack⟩) (layout.saveStack values count)
      (some ⟨facts, stack⟩) := by
  rw [← entryKinds_take useful count]
  refine Types.saveEntries covered ?_
  intro stored member
  obtain ⟨inside, has⟩ := mem_storedValues (List.mem_of_mem_take member)
  exact storable.entryArray arrays (part inside) has

theorem pushEntries (storable : Storable scheme.limit layout all frame) (covered : base ⊆ facts)
    (arrays : SlotLayout.arrayFacts layout.stackArray frame.stack ⊆ facts)
    {entries : List (Option StoredValue)} (part : entries ⊆ storedValues frame.stack) :
    Types scheme base (some ⟨facts, stack⟩) (layout.pushAll entries)
      (some ⟨facts, entryKinds entries ++ stack⟩) := by
  refine Types.pushAll covered ?_
  intro stored member
  obtain ⟨inside, has⟩ := mem_storedValues (part member)
  obtain ⟨reference, known⟩ := storable.entryArray arrays inside has
  refine ⟨has, reference, known, ?_⟩
  intro name same
  exact storable.named name (List.mem_append_right _ (same ▸ inside))

theorem loadTop (storable : Storable scheme.limit layout all frame) (covered : base ⊆ facts)
    (arrays : SlotLayout.arrayFacts layout.stackArray frame.stack ⊆ facts) {kinds : List Kind}
    (useful : frame.stack.map FrameValue.kind = kinds.map some) (count : Nat) :
    Types scheme base (some ⟨facts, stack⟩) (layout.loadTop frame.stack count)
      (some ⟨facts, kinds.take count ++ stack⟩) := by
  rw [← entryKinds_take useful count]
  exact storable.pushEntries covered arrays (List.take_subset _ _)

theorem loadBelow (storable : Storable scheme.limit layout all frame) (covered : base ⊆ facts)
    (arrays : SlotLayout.arrayFacts layout.stackArray frame.stack ⊆ facts) {kinds : List Kind}
    (useful : frame.stack.map FrameValue.kind = kinds.map some) (count : Nat) :
    Types scheme base (some ⟨facts, stack⟩) (layout.loadBelow frame.stack count)
      (some ⟨facts, kinds.drop count ++ stack⟩) := by
  rw [← entryKinds_drop useful count]
  exact storable.pushEntries covered arrays (List.drop_subset _ _)

theorem saveLocals (storable : Storable scheme.limit layout all frame) (covered : base ⊆ facts)
    (arrays : SlotLayout.arrayFacts layout.localsArray frame.locals ⊆ facts)
    (own : frame.facts ⊆ facts) :
    Types scheme base (some ⟨facts, stack⟩) (layout.saveLocals frame.locals)
      (some ⟨facts, stack⟩) := by
  refine Types.flatMap_keep ?_
  rintro ⟨stored, slot⟩ member
  obtain ⟨here, has⟩ := mem_storedLocals storable.small member
  have present := mem_presentKinds (List.mem_of_getElem? here) has
  have local_known : (slot.toNat, stored.kind) ∈ facts := by
    refine own ?_
    show (frame.locals.map FrameValue.kind)[slot.toNat]? = some (some stored.kind)
    rw [List.getElem?_map, here, Option.map_some, has]
  refine Types.cons (Types.load (storable.localsArray _ present) (arrays ⟨_, present, rfl⟩)
    covered) ?_
  refine Types.cons (Types.push rfl rfl covered) ?_
  refine Types.cons (Types.loadSlot local_known covered) ?_
  exact Types.consumeThree rfl rfl covered

/-- All that the frame knew of its locals is known again. -/
theorem loadLocals (storable : Storable scheme.limit layout all frame) (covered : base ⊆ facts)
    (within : facts ⊆ all)
    (arrays : SlotLayout.arrayFacts layout.localsArray frame.locals ⊆ facts) :
    Types scheme base (some ⟨facts, stack⟩) (layout.loadLocals frame.locals)
      (some ⟨facts ∪ frame.facts, stack⟩) := by
  have known : ∀ item ∈ storedLocals frame.locals,
      (item.2.toNat, item.1.kind) ∈ frame.facts := by
    intro item member
    obtain ⟨here, has⟩ := mem_storedLocals storable.small member
    show (frame.locals.map FrameValue.kind)[item.2.toNat]? = some (some item.1.kind)
    rw [List.getElem?_map, here, Option.map_some, has]
  have same : {fact | ∃ item ∈ storedLocals frame.locals, (item.2.toNat, item.1.kind) = fact} =
      frame.facts := by
    ext ⟨place, kind⟩
    constructor
    · rintro ⟨item, member, pair⟩
      exact pair ▸ known item member
    · exact fun here => storedLocals_complete storable.small here
  rw [← same]
  refine Types.flatMap_store covered within (fun item member => storable.own (known item member)) ?_
  intro item member facts' above below
  obtain ⟨here, has⟩ := mem_storedLocals storable.small member
  have inside := List.mem_of_getElem? here
  have present := mem_presentKinds inside has
  have covered' := covered.trans above
  refine (Types.loadStored has (storable.localsArray _ present)
    (above (arrays ⟨_, present, rfl⟩)) covered' ?_).append ?_
  · intro name same
    exact storable.named name (List.mem_append_left _ (same ▸ inside))
  · exact Types.storeSlot storable.usable (storable.own (known item member)) covered' below

/-- The elements of a container are the arrays for the frame. -/
theorem elementArray (storable : Storable scheme.limit layout all frame)
    {element : Int32 × Kind × Variable}
    (member : element ∈ layout.elements frame.locals frame.stack) :
    element.2.2.kind = .ref ∧ element.2.2.fact ∈ layout.frameFacts frame := by
  rcases List.mem_append.mp member with inside | inside
  · obtain ⟨kind, present, rfl⟩ := List.mem_map.mp inside
    exact ⟨storable.localsArray kind present, Or.inl ⟨kind, present, rfl⟩⟩
  · obtain ⟨kind, present, rfl⟩ := List.mem_map.mp inside
    exact ⟨storable.stackArray kind present, Or.inr ⟨kind, present, rfl⟩⟩

theorem elements_facts (layout : SlotLayout) (frame : Frame) :
    {fact | ∃ element ∈ layout.elements frame.locals frame.stack, element.2.2.fact = fact} =
      layout.frameFacts frame := by
  ext fact
  constructor
  · rintro ⟨element, member, rfl⟩
    rcases List.mem_append.mp member with inside | inside
    · obtain ⟨kind, present, rfl⟩ := List.mem_map.mp inside
      exact Or.inl ⟨kind, present, rfl⟩
    · obtain ⟨kind, present, rfl⟩ := List.mem_map.mp inside
      exact Or.inr ⟨kind, present, rfl⟩
  · rintro (⟨kind, present, rfl⟩ | ⟨kind, present, rfl⟩)
    · exact ⟨_, List.mem_append_left _ (List.mem_map_of_mem present), rfl⟩
    · exact ⟨_, List.mem_append_right _ (List.mem_map_of_mem present), rfl⟩

theorem pack (storable : Storable scheme.limit layout all frame) (covered : base ⊆ facts)
    (within : facts ⊆ all) (arrays : layout.frameFacts frame ⊆ facts) :
    Types scheme base (some ⟨facts, stack⟩) (layout.pack frame.locals frame.stack)
      (some ⟨insert layout.container.fact facts, stack⟩) := by
  obtain ⟨reference, member⟩ := storable.container
  have covered' := covered.trans (Set.subset_insert layout.container.fact facts)
  refine Types.append ?_ (Types.flatMap_keep ?_)
  · refine Types.cons (Types.push rfl rfl covered) ?_
    refine Types.cons (Types.unary rfl rfl covered) ?_
    exact Types.store storable.usable reference member covered within
  · rintro element inside
    obtain ⟨array, known⟩ := storable.elementArray inside
    refine Types.cons (Types.load reference (Set.mem_insert _ _) covered') ?_
    refine Types.cons (Types.push rfl rfl covered') ?_
    refine Types.cons (Types.load array (Set.subset_insert _ _ (arrays known)) covered') ?_
    exact Types.consumeThree rfl rfl covered'

theorem unpack (storable : Storable scheme.limit layout all frame) (covered : base ⊆ facts)
    (within : facts ⊆ all) (container : layout.container.fact ∈ facts) :
    Types scheme base (some ⟨facts, stack⟩) (layout.unpack frame.locals frame.stack)
      (some ⟨facts ∪ layout.frameFacts frame, stack⟩) := by
  rw [← elements_facts]
  refine Types.flatMap_store covered within ?_ ?_
  · intro element inside
    exact storable.arrays (storable.elementArray inside).2
  intro element inside known above below
  obtain ⟨array, member⟩ := storable.elementArray inside
  have covered' := covered.trans above
  refine Types.cons (Types.load storable.container.1 (above container) covered') ?_
  refine Types.cons (Types.push rfl rfl covered') ?_
  refine Types.cons (Types.binary rfl rfl covered') ?_
  refine Types.cons (Types.unary
    (Signature.ofInsn_checkCast (Kind.arrayType_denotes element.2.1)) rfl covered') ?_
  exact Types.store storable.usable array (storable.arrays member) covered' below

end Storable

end StackCoroutine
