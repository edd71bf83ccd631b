import Mathlib.Data.List.Forall2
import StackCoroutine.Instrument.FrameStorage
import StackCoroutine.Proofs.Machine.HeapFacts

/-!
The arrays that a frame is saved in. There is one array for each category; values written to
different elements, or to the arrays of different categories, stay side by side.
-/

namespace StackCoroutine

namespace Heap

variable {heap base : Heap} {array other : ObjectRef} {place index : Nat} {value held : Value}
  {element : ValueType} {values : Array Value}

/-- The array has the value at a place. -/
def Holds (heap : Heap) (array : ObjectRef) (place : Nat) (value : Value) : Prop :=
  ∃ element values, heap.get array = .ok (.array element values) ∧ values[place]? = some value

/-- Every category has an array of its element type and size. -/
def Spans (heap : Heap) (refs : Kind → ObjectRef) (sizes : Kind → Nat) (kinds : List Kind) : Prop :=
  ∀ kind ∈ kinds, ∃ values, heap.get (refs kind) = .ok (.array kind.elementType values) ∧
    values.size = sizes kind

theorem array_of_get (found : heap.get array = .ok (.array element values)) :
    heap.array array = .ok values := by
  unfold Heap.array
  rw [found]
  rfl

theorem get_setElement (found : heap.get array = .ok (.array element values)) (place : Nat)
    (value : Value) : (heap.setElement array place value).get array =
      .ok (.array element (values.setIfInBounds place value)) :=
  get_update found _

theorem get_setElement_ne (different : array ≠ other) (place : Nat) (value : Value) :
    (heap.setElement array place value).get other = heap.get other :=
  get_update_ne different _

theorem Holds.write (found : heap.get array = .ok (.array element values))
    (inside : place < values.size) (value : Value) :
    (heap.setElement array place value).Holds array place value :=
  ⟨element, _, get_setElement found place value, by simp [inside]⟩

/-- What another place holds stays there. -/
theorem Holds.setElement (holds : heap.Holds other index held)
    (apart : other ≠ array ∨ index ≠ place) (value : Value) :
    (heap.setElement array place value).Holds other index held := by
  obtain ⟨element, values, found, here⟩ := holds
  by_cases same : other = array
  · subst same
    have different : place ≠ index := by
      rcases apart with impossible | different
      · exact absurd rfl impossible
      · exact Ne.symm different
    refine ⟨element, _, get_setElement found place value, ?_⟩
    rw [Array.getElem?_setIfInBounds_ne different]
    exact here
  · exact ⟨element, values, by rwa [get_setElement_ne (Ne.symm same)], here⟩

theorem Spans.setElement {refs : Kind → ObjectRef} {sizes : Kind → Nat} {kinds : List Kind}
    (spans : heap.Spans refs sizes kinds) (array : ObjectRef) (place : Nat) (value : Value) :
    (heap.setElement array place value).Spans refs sizes kinds := by
  intro kind member
  obtain ⟨values, found, size⟩ := spans kind member
  by_cases same : array = refs kind
  · subst same
    exact ⟨_, get_setElement found place value, by simpa using size⟩
  · exact ⟨values, by rwa [get_setElement_ne same], size⟩

theorem Grows.setElement {count : Nat} (grows : base.Grows heap count)
    (new : ∀ held, base.get array ≠ .ok held) (place : Nat) (value : Value) :
    base.Grows (heap.setElement array place value) count :=
  grows.update new fun _ _ => rfl

/-- Writes values to their elements. -/
def fill (heap : Heap) (refs : Kind → ObjectRef) : List (StoredValue × Value) → Heap
  | [] => heap
  | (stored, value) :: rest =>
      fill (heap.setElement (refs stored.kind) stored.index value) refs rest

section

variable {refs : Kind → ObjectRef} {sizes : Kind → Nat} {kinds : List Kind}
  {items : List (StoredValue × Value)}

theorem Spans.fill (spans : heap.Spans refs sizes kinds) :
    (heap.fill refs items).Spans refs sizes kinds := by
  induction items generalizing heap with
  | nil => exact spans
  | cons item rest ih => exact ih (spans.setElement _ _ _)

theorem Grows.fill {count : Nat} (grows : base.Grows heap count)
    (new : ∀ item ∈ items, ∀ held, base.get (refs item.1.kind) ≠ .ok held) :
    base.Grows (heap.fill refs items) count := by
  induction items generalizing heap with
  | nil => exact grows
  | cons item rest ih =>
      apply ih
      · exact grows.setElement (new item List.mem_cons_self) _ _
      · exact fun other member => new other (List.mem_cons_of_mem _ member)

/-- Objects have been added, so many at most, and of those there were only some have changed. -/
structure Alters (heap later : Heap) (objects : Set ObjectRef) (count : Nat) : Prop where
  keeps : ∀ object held, object ∉ objects → heap.get object = .ok held →
    later.get object = .ok held
  interns : heap.Interns → later.Interns
  size : later.size ≤ heap.size + count

namespace Alters

variable {later last : Heap} {objects : Set ObjectRef} {count more : Nat}

theorem grow (alters : heap.Alters later objects count) (grows : later.Grows last more) :
    heap.Alters last objects (count + more) where
  keeps object held outside found := grows.keeps object held (alters.keeps object held outside found)
  interns interns := grows.interns (alters.interns interns)
  size := by
    have early := alters.size
    have late := grows.size
    omega

theorem roomy (alters : heap.Alters later objects count) (roomy : heap.Roomy (count + more)) :
    later.Roomy more := by
  have size := alters.size
  unfold Roomy at roomy ⊢
  omega

end Alters

/-- Writing values changes no other objects than the arrays. -/
theorem alters_fill (heap : Heap) (refs : Kind → ObjectRef) (items : List (StoredValue × Value)) :
    heap.Alters (heap.fill refs items) {object | ∃ item ∈ items, refs item.1.kind = object} 0 := by
  induction items generalizing heap with
  | nil => exact ⟨fun _ _ _ found => found, id, Nat.le_refl _⟩
  | cons item rest ih =>
      have written := ih (heap.setElement (refs item.1.kind) item.1.index item.2)
      refine ⟨?_, ?_, ?_⟩
      · intro object held outside found
        apply written.keeps object held
        · rintro ⟨other, member, same⟩
          exact outside ⟨other, List.mem_cons_of_mem _ member, same⟩
        · rw [get_setElement_ne fun same => outside ⟨item, List.mem_cons_self, same⟩]
          exact found
      · exact fun interns => written.interns (interns.update fun _ _ => rfl)
      · have same : (heap.setElement (refs item.1.kind) item.1.index item.2).size = heap.size := by
          simp [Heap.setElement, Heap.update, Heap.size]
        have size := written.size
        rwa [same] at size

/-- An element that none of the values goes to keeps what it holds. -/
theorem Holds.fill (holds : heap.Holds array place value)
    (apart : ∀ item ∈ items, array ≠ refs item.1.kind ∨ place ≠ item.1.index) :
    (heap.fill refs items).Holds array place value := by
  induction items generalizing heap with
  | nil => exact holds
  | cons item rest ih =>
      apply ih
      · exact holds.setElement (apart item List.mem_cons_self) _
      · exact fun other member => apart other (List.mem_cons_of_mem _ member)

/-- No two values go to the same element. -/
def Scattered (items : List (StoredValue × Value)) : Prop :=
  items.Pairwise fun item other => item.1.kind ≠ other.1.kind ∨ item.1.index ≠ other.1.index

/-- Every value is where it has been written. -/
theorem fill_holds (spans : heap.Spans refs sizes kinds)
    (fits : ∀ item ∈ items, item.1.kind ∈ kinds ∧ item.1.index < sizes item.1.kind)
    (injective : ∀ kind ∈ kinds, ∀ other ∈ kinds, refs kind = refs other → kind = other)
    (scattered : Scattered items) :
    ∀ item ∈ items, (heap.fill refs items).Holds (refs item.1.kind) item.1.index item.2 := by
  induction items generalizing heap with
  | nil => exact fun item member => absurd member List.not_mem_nil
  | cons first rest ih =>
      obtain ⟨apart, others⟩ := List.pairwise_cons.mp scattered
      intro item member
      rcases List.mem_cons.mp member with rfl | later
      · obtain ⟨listed, inside⟩ := fits item List.mem_cons_self
        obtain ⟨values, found, size⟩ := spans _ listed
        have written := Holds.write found (size ▸ inside) item.2
        apply Holds.fill written
        intro other member
        have listed' := (fits other (List.mem_cons_of_mem _ member)).1
        rcases apart other member with kinds | places
        · exact Or.inl fun same => kinds (injective _ listed _ listed' same)
        · exact Or.inr places
      · apply ih (spans.setElement _ _ _) _ others item later
        exact fun other member => fits other (List.mem_cons_of_mem _ member)

/-- The arrays hold values that are listed with their places. -/
def HoldsAll (heap : Heap) (refs : Kind → ObjectRef) (stored : List StoredValue)
    (values : List Value) : Prop :=
  List.Forall₂ (fun item value => heap.Holds (refs item.kind) item.index value) stored values

theorem Holds.of_get {after : Heap} (holds : heap.Holds array place value)
    (same : after.get array = heap.get array) : after.Holds array place value := by
  obtain ⟨element, values, found, here⟩ := holds
  exact ⟨element, values, same.trans found, here⟩

theorem HoldsAll.of_get {after : Heap} {stored : List StoredValue} {values : List Value}
    (holds : heap.HoldsAll refs stored values)
    (same : ∀ item ∈ stored, after.get (refs item.kind) = heap.get (refs item.kind)) :
    after.HoldsAll refs stored values := by
  induction holds with
  | nil => exact List.Forall₂.nil
  | @cons item value stored values here _ ih =>
      apply List.Forall₂.cons
      · exact here.of_get (same item List.mem_cons_self)
      · exact ih fun other member => same other (List.mem_cons_of_mem _ member)

theorem HoldsAll.fill {stored : List StoredValue} {values : List Value}
    (holds : heap.HoldsAll refs stored values)
    (apart : ∀ item ∈ stored, ∀ other ∈ items,
      refs item.kind ≠ refs other.1.kind ∨ item.index ≠ other.1.index) :
    (heap.fill refs items).HoldsAll refs stored values := by
  induction holds with
  | nil => exact List.Forall₂.nil
  | @cons item value stored values here _ ih =>
      apply List.Forall₂.cons
      · exact here.fill (apart item List.mem_cons_self)
      · exact ih fun other member => apart other (List.mem_cons_of_mem _ member)

/-- Values that are written to places of their own are there afterwards. -/
theorem fill_holdsAll {stored : List StoredValue} {values : List Value}
    (spans : heap.Spans refs sizes kinds) (same : stored.length = values.length)
    (fits : ∀ item ∈ stored, item.kind ∈ kinds ∧ item.index < sizes item.kind)
    (injective : ∀ kind ∈ kinds, ∀ other ∈ kinds, refs kind = refs other → kind = other)
    (apart : stored.Pairwise fun item other => item.kind ≠ other.kind ∨ item.index ≠ other.index) :
    (heap.fill refs (stored.zip values)).HoldsAll refs stored values := by
  have first : (stored.zip values).map Prod.fst = stored :=
    List.map_fst_zip (Nat.le_of_eq same)
  have scattered : Scattered (stored.zip values) := by
    rw [← first] at apart
    exact List.pairwise_map.mp apart
  have written : ∀ item ∈ stored.zip values,
      (heap.fill refs (stored.zip values)).Holds (refs item.1.kind) item.1.index item.2 := by
    apply fill_holds spans _ injective scattered
    intro item member
    exact fits item.1 (first ▸ List.mem_map_of_mem member)
  exact List.forall₂_iff_zip.mpr ⟨same, fun {item value} member => written (item, value) member⟩

end

end Heap

end StackCoroutine
