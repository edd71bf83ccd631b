import Mathlib.Algebra.Ring.Nat
import StackCoroutine.Machine.NativeCall

/-!
What stays and what changes in a heap. Objects that are there keep their references when others are
made, and a change of one object leaves the others alone.
-/

namespace StackCoroutine

namespace Heap

variable {heap later last : Heap} {object other : ObjectRef} {held content : HeapObject}

theorem get_eq_ok : heap.get object = .ok held ↔ heap.objects[object.index.toNat]? = some held := by
  unfold get
  cases heap.objects[object.index.toNat]? <;> simp

/-- There is a reference for one more object. -/
def Roomy (count : Nat) (heap : Heap) : Prop := heap.size + count ≤ 2 ^ 32

theorem Roomy.mono {count fewer : Nat} (roomy : heap.Roomy count) (less : fewer ≤ count) :
    heap.Roomy fewer := by
  unfold Roomy at roomy ⊢
  omega

theorem Roomy.alloc {count : Nat} (roomy : heap.Roomy (count + 1)) :
    (heap.alloc content).2.Roomy count := by
  unfold Roomy size at roomy ⊢
  simp only [Heap.alloc, Array.size_push]
  omega

theorem alloc_index (roomy : heap.Roomy 1) :
    (heap.alloc content).1.index.toNat = heap.size := by
  unfold Roomy at roomy
  show (UInt32.ofNat heap.size).toNat = heap.size
  rw [UInt32.toNat_ofNat']
  omega

theorem get_alloc (roomy : heap.Roomy 1) :
    (heap.alloc content).2.get (heap.alloc content).1 = .ok content := by
  rw [get_eq_ok, alloc_index roomy]
  exact Array.getElem?_push_size

/-- The objects of a heap are there in a later one, as they were. -/
def Extends (heap later : Heap) : Prop :=
  ∀ object held, heap.get object = .ok held → later.get object = .ok held

namespace Extends

theorem refl (heap : Heap) : heap.Extends heap := fun _ _ found => found

theorem trans (first : heap.Extends later) (second : later.Extends last) : heap.Extends last :=
  fun object held found => second object held (first object held found)

theorem alloc (content : HeapObject) : heap.Extends (heap.alloc content).2 := by
  intro object held found
  rw [get_eq_ok] at found ⊢
  obtain ⟨inside, _⟩ := Array.getElem?_eq_some_iff.mp found
  simpa only [Heap.alloc, Array.getElem?_push_lt inside] using
    Array.getElem?_eq_getElem inside ▸ found

theorem array {values : Array Value} (grows : heap.Extends later)
    (found : heap.array object = .ok values) : later.array object = .ok values := by
  unfold Heap.array at found ⊢
  cases got : heap.get object with
  | error fault => simp [got, bind, Except.bind] at found
  | ok held => rwa [grows object held got, ← got]

theorem className {name : String} (grows : heap.Extends later)
    (found : heap.className object = .ok name) : later.className object = .ok name := by
  unfold Heap.className at found ⊢
  cases got : heap.get object with
  | error fault => simp [got, bind, Except.bind] at found
  | ok held => rwa [grows object held got, ← got]

/-- An object that is not there yet can change. -/
theorem update (grows : heap.Extends later) {change : HeapObject → HeapObject}
    (new : ∀ held, heap.get object ≠ .ok held) : heap.Extends (later.update object change) := by
  intro other held found
  have there := grows other held found
  rw [get_eq_ok] at there ⊢
  have different : object.index.toNat ≠ other.index.toNat := by
    intro same
    have equal : object = other := by
      cases object
      cases other
      simpa [UInt32.toNat_inj] using same
    exact new held (equal ▸ found)
  simp only [Heap.update, Array.getElem?_modify, if_neg different]
  exact there

end Extends

/-- A reference to a new object is to none of those there. -/
theorem alloc_new (roomy : heap.Roomy 1) (found : heap.get object = .ok held) :
    object ≠ (heap.alloc content).1 := by
  rintro rfl
  rw [get_eq_ok, alloc_index roomy] at found
  exact absurd (Array.getElem?_eq_some_iff.mp found).1 (Nat.lt_irrefl _)

theorem get_update (found : heap.get object = .ok held) (change : HeapObject → HeapObject) :
    (heap.update object change).get object = .ok (change held) := by
  rw [get_eq_ok] at found ⊢
  simp [update, Array.getElem?_modify, found]

theorem get_update_ne (different : object ≠ other) (change : HeapObject → HeapObject) :
    (heap.update object change).get other = heap.get other := by
  have apart : object.index.toNat ≠ other.index.toNat := by
    intro same
    apply different
    cases object
    cases other
    simpa [UInt32.toNat_inj] using same
  unfold get
  simp only [update, Array.getElem?_modify, if_neg apart]

/-- Every text constant in the table is an object with that text. -/
def Interns (heap : Heap) : Prop :=
  ∀ content object, heap.interned.lookup content = some object →
    heap.get object = .ok (.text content)

theorem Interns.update (interns : heap.Interns) {change : HeapObject → HeapObject}
    (texts : ∀ content, heap.get object = .ok (.text content) →
      change (.text content) = .text content) :
    (heap.update object change).Interns := by
  intro content other listed
  have found := interns content other listed
  by_cases same : object = other
  · subst same
    rw [get_update found, texts content found]
  · rwa [get_update_ne same]

/-- The objects of a heap are as they were, and there are so many more at most. -/
structure Grows (heap later : Heap) (count : Nat) : Prop where
  keeps : heap.Extends later
  interns : heap.Interns → later.Interns
  size : later.size ≤ heap.size + count

namespace Grows

variable {base : Heap} {count more : Nat}

theorem refl (heap : Heap) : heap.Grows heap 0 := ⟨.refl heap, id, Nat.le_refl _⟩

theorem trans (first : base.Grows heap count) (second : heap.Grows later more) :
    base.Grows later (count + more) where
  keeps := first.keeps.trans second.keeps
  interns interns := second.interns (first.interns interns)
  size := by
    have early := first.size
    have late := second.size
    omega

theorem mono (grows : base.Grows heap count) (less : count ≤ more) : base.Grows heap more :=
  ⟨grows.keeps, grows.interns, by have size := grows.size; omega⟩

theorem roomy (grows : base.Grows heap count) (roomy : base.Roomy (count + more)) :
    heap.Roomy more := by
  have size := grows.size
  unfold Roomy at roomy ⊢
  omega

theorem alloc (content : HeapObject) : heap.Grows (heap.alloc content).2 1 where
  keeps := .alloc content
  interns interns text object listed :=
    Extends.alloc content object _ (interns text object listed)
  size := by simp [Heap.alloc, Heap.size]

/-- An object that is new, and no text, changes. -/
theorem update (grows : base.Grows heap count) {change : HeapObject → HeapObject}
    (new : ∀ held, base.get object ≠ .ok held)
    (texts : ∀ content, heap.get object = .ok (.text content) →
      change (.text content) = .text content) :
    base.Grows (heap.update object change) count where
  keeps := grows.keeps.update new
  interns interns := (grows.interns interns).update texts
  size := by simpa [Heap.update, Heap.size] using grows.size

end Grows

/-- A text constant stands for an object with its text. -/
theorem intern_text (interns : heap.Interns) (roomy : heap.Roomy 1) (content : String) :
    (heap.intern content).2.get (heap.intern content).1 = .ok (.text content) := by
  unfold intern
  cases listed : heap.interned.lookup content with
  | some object => exact interns content object listed
  | none => exact get_alloc roomy

theorem intern_grows (roomy : heap.Roomy 1) (content : String) :
    heap.Grows (heap.intern content).2 1 := by
  unfold intern
  cases listed : heap.interned.lookup content with
  | some object => exact (Grows.refl heap).mono (Nat.zero_le _)
  | none =>
      refine ⟨.alloc _, ?_, by simp [Heap.alloc, Heap.size]⟩
      intro interns text object found
      -- The new entry comes last, so it is found only for its own text.
      have entry : heap.interned.lookup text = some object ∨
          text = content ∧ object = (heap.alloc (.text content)).1 := by
        have appended : (heap.interned ++ [(content, (heap.alloc (.text content)).1)]).lookup text =
            some object := found
        rw [List.lookup_append] at appended
        cases there : heap.interned.lookup text with
        | some other => exact Or.inl (by simpa [there] using appended)
        | none =>
            rw [there, Option.none_or, List.lookup_cons] at appended
            by_cases same : text = content
            · subst same
              rw [beq_self_eq_true] at appended
              exact Or.inr ⟨rfl, (Option.some.inj appended).symm⟩
            · rw [beq_eq_false_iff_ne.mpr same] at appended
              cases appended
      rcases entry with old | ⟨rfl, rfl⟩
      · exact Extends.alloc _ object _ (interns text object old)
      · exact get_alloc roomy

end Heap

end StackCoroutine
