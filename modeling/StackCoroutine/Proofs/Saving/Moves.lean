import Mathlib.Logic.Function.Basic
import StackCoroutine.Proofs.Instrument.Storage
import StackCoroutine.Proofs.Machine.Rules
import StackCoroutine.Proofs.Saving.Cells
import StackCoroutine.Proofs.Saving.Slots

/-!
Execution of the code that moves values between a frame and its arrays. What has been saved is what the
arrays hold, and what is loaded is what they held.
-/

namespace StackCoroutine

/-- The value is one of those that the frame value stands for. -/
def FrameValue.Fits (classes : ClassTable) (heap : Heap) : FrameValue → Value → Prop
  | .uninitialized, _ => True
  | .int, value => value.kind = .int
  | .float, value => value.kind = .float
  | .long, value => value.kind = .long
  | .double, value => value.kind = .double
  | .null, value => value = .null
  | .reference name, value => value = .null ∨ value.IsInstance classes heap name

/-- Objects keep their classes. -/
def Heap.KeepsClasses (heap later : Heap) : Prop :=
  ∀ object name, heap.className object = .ok name → later.className object = .ok name

theorem Heap.Extends.keepsClasses {heap later : Heap} (grows : heap.Extends later) :
    heap.KeepsClasses later :=
  fun _ _ found => grows.className found

theorem Value.IsInstance.later {classes : ClassTable} {heap later : Heap} {value : Value}
    {name : String} (holds : value.IsInstance classes heap name) (keeps : heap.KeepsClasses later) :
    value.IsInstance classes later name := by
  obtain ⟨className, known, assignable⟩ := holds
  refine ⟨className, ?_, assignable⟩
  cases value with
  | ref object =>
      exact Outcome.toOption_eq_some.mpr (keeps object _ (Outcome.toOption_eq_some.mp known))
  | context => exact known
  | null | int _ | long _ | float _ | double _ => cases known

theorem Value.IsInstance.kind {classes : ClassTable} {heap : Heap} {value : Value} {name : String}
    (holds : value.IsInstance classes heap name) : value.kind = .ref := by
  obtain ⟨className, known, _⟩ := holds
  cases value <;> first | rfl | cases known

namespace FrameValue.Fits

variable {classes : ClassTable} {heap after : Heap} {frameValue : FrameValue} {value : Value}

theorem later (fits : frameValue.Fits classes heap value) (keeps : heap.KeepsClasses after) :
    frameValue.Fits classes after value := by
  cases frameValue with
  | reference name => exact fits.imp_right fun holds => holds.later keeps
  | _ => exact fits

theorem kind {kind : Kind} (fits : frameValue.Fits classes heap value)
    (has : frameValue.kind = some kind) : value.kind = kind := by
  cases frameValue with
  | uninitialized => cases has
  | null =>
      cases has
      rw [show value = .null from fits]
      rfl
  | reference name =>
      cases has
      rcases fits with rfl | holds
      · rfl
      · exact holds.kind
  | int | float | long | double =>
      cases has
      exact fits

end FrameValue.Fits

/-- Small numbers are their own places. -/
theorem place_number {number : Nat} (small : number < 2 ^ 31) :
    0 ≤ Int32.ofNat number ∧ (Int32.ofNat number).toInt.toNat = number := by
  have same := Int32.toInt_ofNat_of_lt small
  rw [Int32.le_iff_toInt_le, same]
  simp

namespace Does

variable {classes : ClassTable} {locals stack : List Value} {world : World} {array : ObjectRef}
  {element : ValueType} {values : Array Value} {number : Nat} {kind : Kind} {value : Value}

theorem loadRef {var : Variable} {object : ObjectRef} (reference : var.kind = .ref)
    (held : locals[var.slot.toNat]? = some (.ref object)) :
    Does classes var.load ⟨locals, stack, world⟩ ⟨locals, .ref object :: stack, world⟩ :=
  load held reference.symm

theorem storeRef {var : Variable} {object : ObjectRef} (reference : var.kind = .ref)
    (inside : var.slot.toNat < locals.length) :
    Does classes var.store ⟨locals, .ref object :: stack, world⟩
      ⟨locals.set var.slot.toNat (.ref object), stack, world⟩ :=
  store inside reference.symm

theorem arrayLoadAt (holds : world.heap.Holds array number value) (small : number < 2 ^ 31)
    (has : value.kind = kind) :
    Does classes (.arrayLoad kind)
      ⟨locals, .int (Int32.ofNat number) :: .ref array :: stack, world⟩
      ⟨locals, value :: stack, world⟩ := by
  obtain ⟨low, same⟩ := place_number small
  obtain ⟨element, values, found, here⟩ := holds
  exact arrayLoad (Heap.array_of_get found) low (by rwa [same]) has

theorem arrayStoreAt (found : world.heap.get array = .ok (.array element values))
    (inside : number < values.size) (small : number < 2 ^ 31) (has : value.kind = kind) :
    Does classes (.arrayStore kind)
      ⟨locals, value :: .int (Int32.ofNat number) :: .ref array :: stack, world⟩
      ⟨locals, stack, { world with heap := world.heap.setElement array number value }⟩ := by
  obtain ⟨low, same⟩ := place_number small
  have stored : Does classes (.arrayStore kind)
      ⟨locals, value :: .int (Int32.ofNat number) :: .ref array :: stack, world⟩
      ⟨locals, stack, { world with
        heap := world.heap.setElement array (Int32.ofNat number).toInt.toNat value }⟩ :=
    arrayStore (Heap.array_of_get found) low (by rwa [same]) has
  rwa [same] at stored

theorem newArrayOf (small : number < 2 ^ 31) :
    Does classes (.newArray element) ⟨locals, .int (Int32.ofNat number) :: stack, world⟩
      ⟨locals, .ref (world.heap.newArray element number).1 :: stack,
        { world with heap := (world.heap.newArray element number).2 }⟩ := by
  obtain ⟨low, same⟩ := place_number small
  have made : Does classes (.newArray element)
      ⟨locals, .int (Int32.ofNat number) :: stack, world⟩
      ⟨locals, .ref (world.heap.newArray element (Int32.ofNat number).toInt.toNat).1 :: stack,
        { world with
          heap := (world.heap.newArray element (Int32.ofNat number).toInt.toNat).2 }⟩ :=
    newArray low
  rwa [same] at made

end Does

/-- The values of a stack with their places. -/
def storedStack (values : List FrameValue) : List StoredValue := (storedValues values).filterMap id

theorem storedStack_map {values : List FrameValue} {kinds : List Kind}
    (useful : values.map FrameValue.kind = kinds.map some) :
    storedValues values = (storedStack values).map some := by
  unfold storedStack
  induction values generalizing kinds with
  | nil => rfl
  | cons value earlier ih =>
      cases kinds with
      | nil => simp at useful
      | cons kind others =>
          obtain ⟨has, rest⟩ := List.cons.inj useful
          rw [storedValues, has]
          exact congrArg _ (ih rest)

/-- The array variables of some categories refer to arrays. -/
def Pointing (arrayOf : Kind → Variable) (refs : Kind → ObjectRef) (kinds : List Kind)
    (locals : List Value) : Prop :=
  ∀ kind ∈ kinds, (arrayOf kind).kind = .ref ∧
    locals[(arrayOf kind).slot.toNat]? = some (.ref (refs kind))

/-- The places of stored values lie inside the arrays of their categories. -/
def Placed (sizes : Kind → Nat) (kinds : List Kind) (stored : List StoredValue) : Prop :=
  ∀ item ∈ stored, item.kind ∈ kinds ∧ item.index < sizes item.kind ∧ item.index < 2 ^ 31

namespace Performs

open Does

variable {classes : ClassTable} {locals stack : List Value} {world : World}
  {arrayOf : Kind → Variable} {refs : Kind → ObjectRef} {sizes : Kind → Nat} {kinds : List Kind}

/-- A stored value is pushed. -/
theorem loadStored {stored : StoredValue} {array : Variable} {object : ObjectRef} {value : Value}
    (has : stored.value.kind = some stored.kind) (reference : array.kind = .ref)
    (held : locals[array.slot.toNat]? = some (.ref object)) (small : stored.index < 2 ^ 31)
    (holds : world.heap.Holds object stored.index value)
    (fits : stored.value.Fits classes world.heap value) :
    Performs classes (stored.load array) ⟨locals, stack, world⟩ ⟨locals, value :: stack, world⟩ := by
  have same := fits.kind has
  have element : Performs classes
      [array.load, .intConst (Int32.ofNat stored.index), .arrayLoad stored.kind]
      ⟨locals, stack, world⟩ ⟨locals, value :: stack, world⟩ := by
    apply cons (load held reference.symm)
    apply cons (intConst _)
    exact single (arrayLoadAt holds small same)
  obtain ⟨frameValue, kind, index⟩ := stored
  cases frameValue with
  | null =>
      rw [show value = .null from fits]
      exact single constNull
  | reference name =>
      apply element.append
      split
      · exact nil
      · exact single (checkCast fits)
  | uninitialized => cases has
  | int | float | long | double => exact element

/-- The top of the stack goes into its array. -/
theorem saveEntry {stored : StoredValue} {value : Value}
    (pointing : Pointing arrayOf refs kinds locals) (spans : world.heap.Spans refs sizes kinds)
    (placed : stored.kind ∈ kinds ∧ stored.index < sizes stored.kind ∧ stored.index < 2 ^ 31)
    (has : value.kind = stored.kind) :
    Performs classes [(arrayOf stored.kind).load, .swap, .intConst (Int32.ofNat stored.index),
        .swap, .arrayStore stored.kind]
      ⟨locals, value :: stack, world⟩
      ⟨locals, stack, { world with
        heap := world.heap.setElement (refs stored.kind) stored.index value }⟩ := by
  obtain ⟨listed, inside, small⟩ := placed
  obtain ⟨reference, held⟩ := pointing _ listed
  obtain ⟨values, found, size⟩ := spans _ listed
  apply cons (load held reference.symm)
  apply cons swap
  apply cons (intConst _)
  apply cons swap
  exact single (arrayStoreAt found (size ▸ inside) small has)

/-- The top entries of the stack go into their arrays. -/
theorem saveEntries {stored : List StoredValue} {values : List Value}
    (pointing : Pointing arrayOf refs kinds locals) (spans : world.heap.Spans refs sizes kinds)
    (placed : Placed sizes kinds stored)
    (kept : List.Forall₂ (fun item value => value.kind = item.kind) stored values) :
    Performs classes ((stored.map some).flatMap fun
        | none => []
        | some item => [(arrayOf item.kind).load, .swap, .intConst (Int32.ofNat item.index), .swap,
            .arrayStore item.kind])
      ⟨locals, values ++ stack, world⟩
      ⟨locals, stack, { world with heap := world.heap.fill refs (stored.zip values) }⟩ := by
  induction kept generalizing world with
  | nil => exact nil
  | @cons item value stored values has _ ih =>
      rw [List.map_cons, List.flatMap_cons]
      apply append (saveEntry pointing spans (placed item List.mem_cons_self) has)
      exact ih (spans.setElement _ _ _) fun other member =>
        placed other (List.mem_cons_of_mem _ member)

/-- Stored values that are listed from the top come back onto the stack. -/
theorem pushEntries {layout : SlotLayout} {stored : List StoredValue} {values : List Value}
    (pointing : Pointing layout.stackArray refs kinds locals) (placed : Placed sizes kinds stored)
    (held : List.Forall₂ (fun item value => item.value.kind = some item.kind ∧
      world.heap.Holds (refs item.kind) item.index value ∧
      item.value.Fits classes world.heap value) stored values) :
    Performs classes (layout.pushAll (stored.map some)) ⟨locals, stack, world⟩
      ⟨locals, values ++ stack, world⟩ := by
  induction held with
  | nil => exact nil
  | @cons item value stored values here _ ih =>
      obtain ⟨has, holds, fits⟩ := here
      obtain ⟨listed, _, small⟩ := placed item List.mem_cons_self
      obtain ⟨reference, variable_held⟩ := pointing _ listed
      have split : layout.pushAll ((item :: stored).map some) =
          layout.pushAll (stored.map some) ++ item.load (layout.stackArray item.kind) := by
        simp [SlotLayout.pushAll]
      rw [split]
      exact (ih fun other member => placed other (List.mem_cons_of_mem _ member)).append
        (loadStored has reference variable_held small holds fits)

/-- What a list of slots holds. -/
theorem saveSlots {items : List (StoredValue × UInt16)} {content : UInt16 → Value}
    (pointing : Pointing arrayOf refs kinds locals) (spans : world.heap.Spans refs sizes kinds)
    (placed : Placed sizes kinds (items.map Prod.fst))
    (kept : ∀ item ∈ items, locals[item.2.toNat]? = some (content item.2) ∧
      (content item.2).kind = item.1.kind) :
    Performs classes (items.flatMap fun (item, slot) =>
        [(arrayOf item.kind).load, .intConst (Int32.ofNat item.index), .load item.kind slot,
          .arrayStore item.kind])
      ⟨locals, stack, world⟩
      ⟨locals, stack, { world with
        heap := world.heap.fill refs (items.map fun (item, slot) => (item, content slot)) }⟩ := by
  induction items generalizing world with
  | nil => exact nil
  | cons first rest ih =>
      obtain ⟨item, slot⟩ := first
      obtain ⟨listed, inside, small⟩ := placed item List.mem_cons_self
      obtain ⟨reference, held⟩ := pointing _ listed
      obtain ⟨values, found, size⟩ := spans _ listed
      obtain ⟨here, has⟩ := kept _ List.mem_cons_self
      rw [List.flatMap_cons]
      apply append
      · apply cons (load held reference.symm)
        apply cons (intConst _)
        apply cons (load here has)
        exact single (arrayStoreAt found (size ▸ inside) small has)
      · exact ih (spans.setElement _ _ _)
          (fun other member => placed other (List.mem_cons_of_mem _ member))
          fun other member => kept other (List.mem_cons_of_mem _ member)

end Performs

/-- The heap has gained an array for each of some categories. -/
structure Heap.Allots (base heap : Heap) (refs : Kind → ObjectRef) (sizes : Kind → Nat)
    (kinds : List Kind) : Prop where
  grows : base.Grows heap kinds.length
  spans : heap.Spans refs sizes kinds
  new : ∀ kind ∈ kinds, ∀ held, base.get (refs kind) ≠ .ok held
  injective : ∀ kind ∈ kinds, ∀ other ∈ kinds, refs kind = refs other → kind = other

/-- A new array of the initial value of its category. -/
def initialArray (sizes : Kind → Nat) (kind : Kind) : HeapObject :=
  .array kind.elementType (Array.replicate (sizes kind) (Value.ofType kind.elementType))

theorem Heap.Allots.cons {base heap : Heap} {refs : Kind → ObjectRef} {sizes : Kind → Nat}
    {kind : Kind} {rest : List Kind} (roomy : base.Roomy 1) (outside : kind ∉ rest)
    (allots : (base.alloc (initialArray sizes kind)).2.Allots heap refs sizes rest) :
    base.Allots heap
      (Function.update refs kind (base.alloc (initialArray sizes kind)).1)
      sizes (kind :: rest) := by
  have here : (base.alloc (initialArray sizes kind)).2.get
      (base.alloc (initialArray sizes kind)).1 = .ok (initialArray sizes kind) :=
    Heap.get_alloc roomy
  have grows : base.Grows (base.alloc (initialArray sizes kind)).2 1 := .alloc _
  have unlike : ∀ other ∈ rest, other ≠ kind := by
    rintro other member rfl
    exact outside member
  have fresh : ∀ other ∈ rest, (base.alloc (initialArray sizes kind)).1 ≠ refs other :=
    fun other member same => allots.new other member _ (same ▸ here)
  refine ⟨(grows.trans allots.grows).mono (by simp [Nat.add_comm]), ?_, ?_, ?_⟩
  · intro other member
    rcases List.mem_cons.mp member with rfl | later
    · rw [Function.update_self]
      exact ⟨_, allots.grows.keeps _ _ here, by simp⟩
    · rw [Function.update_of_ne (unlike other later)]
      exact allots.spans other later
  · intro other member held found
    rcases List.mem_cons.mp member with rfl | later
    · rw [Function.update_self] at found
      exact Heap.alloc_new roomy found rfl
    · rw [Function.update_of_ne (unlike other later)] at found
      exact allots.new other later held (grows.keeps _ _ found)
  · intro first member second member' same
    rcases List.mem_cons.mp member with rfl | later <;>
      rcases List.mem_cons.mp member' with rfl | later'
    · rfl
    · rw [Function.update_self, Function.update_of_ne (unlike second later')] at same
      exact absurd same (fresh second later')
    · rw [Function.update_of_ne (unlike first later), Function.update_self] at same
      exact absurd same.symm (fresh first later)
    · rw [Function.update_of_ne (unlike first later),
        Function.update_of_ne (unlike second later')] at same
      exact allots.injective first later second later' same

/-- The variables of some categories are those of a role each. -/
def SlotLayout.Assigns (layout : SlotLayout) (role : Kind → Role) (arrayOf : Kind → Variable)
    (kinds : List Kind) : Prop :=
  ∀ kind ∈ kinds, layout.varFor? (role kind) = some (arrayOf kind) ∧ (arrayOf kind).kind = .ref

namespace Performs

open Does

variable {classes : ClassTable} {locals stack : List Value} {world : World}

/-- An array for each category is made. -/
theorem allocate {layout : SlotLayout} {own : Nat} (spread : layout.Spread own)
    {role : Kind → Role} {arrayOf : Kind → Variable} {sizes : Kind → Nat} {kinds : List Kind}
    (distinct : kinds.Nodup) (injective : Function.Injective role)
    (assigns : layout.Assigns role arrayOf kinds) (length : locals.length = layout.maxLocals.toNat)
    (small : ∀ kind ∈ kinds, sizes kind < 2 ^ 31) (roomy : world.heap.Roomy kinds.length) :
    ∃ refs locals' heap,
      Performs classes (kinds.flatMap fun kind =>
          [.intConst (Int32.ofNat (sizes kind)), .newArray kind.elementType, (arrayOf kind).store])
        ⟨locals, stack, world⟩ ⟨locals', stack, { world with heap }⟩ ∧
      layout.Keeps own {other | ∃ kind ∈ kinds, role kind = other} locals locals' ∧
      Pointing arrayOf refs kinds locals' ∧ world.heap.Allots heap refs sizes kinds := by
  induction kinds generalizing locals world with
  | nil =>
      refine ⟨fun _ => default, locals, world.heap, nil, .refl, ?_, ?_⟩
      · exact fun kind member => absurd member List.not_mem_nil
      · exact ⟨.refl _, by simp [Heap.Spans], by simp, by simp⟩
  | cons kind rest ih =>
      obtain ⟨outside, distinct'⟩ := List.nodup_cons.mp distinct
      obtain ⟨found, reference⟩ := assigns kind List.mem_cons_self
      have roomy_one : world.heap.Roomy 1 := roomy.mono (by simp)
      have inside : (arrayOf kind).slot.toNat < locals.length :=
        length ▸ spread.inside _ _ found
      -- The array for the first category.
      let made := world.heap.alloc (initialArray sizes kind)
      have first : Performs classes [.intConst (Int32.ofNat (sizes kind)),
          .newArray kind.elementType, (arrayOf kind).store] ⟨locals, stack, world⟩
          ⟨locals.set (arrayOf kind).slot.toNat (.ref made.1), stack,
            { world with heap := made.2 }⟩ := by
        apply cons (intConst _)
        apply cons (newArrayOf (small kind List.mem_cons_self))
        exact single (store inside reference.symm)
      -- Those for the others come later.
      obtain ⟨refs, locals', heap, performs, keeps, pointing, allots⟩ :=
        @ih (locals.set (arrayOf kind).slot.toNat (.ref made.1)) { world with heap := made.2 }
          distinct'
          (fun other member => assigns other (List.mem_cons_of_mem _ member))
          (by rw [List.length_set, length])
          (fun other member => small other (List.mem_cons_of_mem _ member)) roomy.alloc
      refine ⟨Function.update refs kind made.1, locals', heap,
        first.append performs, ?_, ?_, allots.cons roomy_one outside⟩
      · have stored : layout.Keeps own {other | ∃ first ∈ kind :: rest, role first = other} locals
            (locals.set (arrayOf kind).slot.toNat (.ref made.1)) :=
          .set spread found (by exact ⟨kind, List.mem_cons_self, rfl⟩) _
        apply stored.trans
        apply keeps.mono
        rintro other ⟨first, member, same⟩
        exact ⟨first, List.mem_cons_of_mem _ member, same⟩
      · intro other member
        by_cases same : other = kind
        · subst same
          have apart : role other ∉ {another | ∃ kind ∈ rest, role kind = another} := by
            rintro ⟨kind, member, equal⟩
            exact outside (injective equal ▸ member)
          rw [Function.update_self, keeps.others _ _ found apart, List.getElem?_set_self inside]
          exact ⟨reference, rfl⟩
        · rw [Function.update_of_ne same]
          exact pointing other ((List.mem_cons.mp member).resolve_left same)

end Performs

end StackCoroutine
