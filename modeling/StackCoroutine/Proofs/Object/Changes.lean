import StackCoroutine.Proofs.Machine.HeapFacts
import StackCoroutine.Proofs.Reference.Places

/-!
What objects can become. Code changes objects in place: it sets the fields of instances and the
elements of arrays, and constructors make lock states and saved frames of whatever object they are
given, texts that stand for constants among them. Nothing else is ever made of an object, so the
object of a text constant is that text as long as no such state has been made of it.
-/

namespace StackCoroutine

namespace HeapObject

/-- What an object can be later; whether saved frames are made of objects is a parameter. -/
def Becomes (constructs : Prop) (before after : HeapObject) : Prop :=
  match after with
  | .instance className _ => ∃ fields, before = .instance className fields
  | .text _ => before = after
  | .array element _ => ∃ values, before = .array element values
  | .savedFrame .. => constructs ∨ before = after
  | .lockState _ => True

/-- A lock state or a saved frame. -/
def isState : HeapObject → Bool
  | .savedFrame .. | .lockState _ => true
  | _ => false

namespace Becomes

variable {constructs : Prop} {before middle after : HeapObject}

theorem refl (object : HeapObject) : object.Becomes constructs object := by
  cases object <;> simp [Becomes]

theorem trans (first : before.Becomes constructs middle)
    (second : middle.Becomes constructs after) : before.Becomes constructs after := by
  -- By what it is in the end: but for a state just made, it has been of that kind all along.
  cases after with
  | «instance» className fields =>
      obtain ⟨_, rfl⟩ := second
      exact first
  | text content =>
      cases (second : middle = .text content)
      exact first
  | array element values =>
      obtain ⟨_, rfl⟩ := second
      exact first
  | savedFrame frame position =>
      rcases second with made | rfl
      · exact Or.inl made
      · exact first
  | lockState state => exact trivial

/-- A text stays as it is until it becomes a state, and a state never becomes a text. -/
theorem of_text {content : String} (becomes : before.Becomes constructs after)
    (was : before = .text content ∨ before.isState = true) :
    after = .text content ∨ after.isState = true := by
  cases after with
  | «instance» className fields =>
      obtain ⟨_, rfl⟩ := becomes
      simp [isState] at was
  | text other =>
      cases (becomes : before = .text other)
      exact was
  | array element values =>
      obtain ⟨_, rfl⟩ := becomes
      simp [isState] at was
  | _ => exact Or.inr rfl

theorem weaken {more : Prop} (becomes : before.Becomes constructs after)
    (enough : constructs → more) : before.Becomes more after := by
  cases after with
  | savedFrame frame position => exact becomes.imp enough id
  | _ => exact becomes

end Becomes

end HeapObject

namespace Heap

/-- The object of an entry of the table of constants is there, and it is the text of the entry or a
state that has been made of it. -/
def Reads (heap : Heap) (entry : String × ObjectRef) : Prop :=
  heap.size ≤ 2 ^ 32 → ∃ held, heap.get entry.2 = .ok held ∧
    (held = .text entry.1 ∨ held.isState = true)

/-- What a heap can be later: no object is gone or has become what it cannot, and the table of
constants has new entries only behind those it had. -/
structure Follows (constructs : Prop) (earlier later : Heap) : Prop where
  grown : earlier.size ≤ later.size
  objects : ∀ (place : Nat) (before after : HeapObject), earlier.objects[place]? = some before →
    later.objects[place]? = some after → before.Becomes constructs after
  constants : ∃ added, later.interned = earlier.interned ++ added ∧ ∀ entry ∈ added, later.Reads entry

variable {constructs : Prop} {heap earlier middle later : Heap}

theorem Follows.refl (heap : Heap) : heap.Follows constructs heap where
  grown := Nat.le_refl _
  objects place before after found found' := by
    cases found.symm.trans found'
    exact .refl before
  constants := ⟨[], (List.append_nil _).symm, nofun⟩

/-- An object that is there is there later. -/
theorem Follows.get {object : ObjectRef} {held : HeapObject}
    (follows : earlier.Follows constructs later) (found : earlier.get object = .ok held) :
    ∃ other, later.get object = .ok other ∧ held.Becomes constructs other := by
  rw [get_eq_ok] at found
  obtain ⟨inside, _⟩ := Array.getElem?_eq_some_iff.mp found
  have there : later.objects[object.index.toNat]? = some _ :=
    Array.getElem?_eq_getElem (Nat.lt_of_lt_of_le inside follows.grown)
  exact ⟨_, get_eq_ok.mpr there, follows.objects _ _ _ found there⟩

/-- An entry of the table reads later as it did, unless a state has been made of its object. -/
theorem Reads.follow {entry : String × ObjectRef} (reads : earlier.Reads entry)
    (follows : earlier.Follows constructs later) : later.Reads entry := by
  intro bounded
  obtain ⟨held, found, was⟩ := reads (Nat.le_trans follows.grown bounded)
  obtain ⟨other, found', becomes⟩ := follows.get found
  exact ⟨other, found', becomes.of_text was⟩

theorem Follows.trans (first : earlier.Follows constructs middle)
    (second : middle.Follows constructs later) : earlier.Follows constructs later where
  grown := Nat.le_trans first.grown second.grown
  objects place before after found found' := by
    obtain ⟨inside, _⟩ := Array.getElem?_eq_some_iff.mp found
    have there : middle.objects[place]? = some _ :=
      Array.getElem?_eq_getElem (Nat.lt_of_lt_of_le inside first.grown)
    exact (first.objects _ _ _ found there).trans (second.objects _ _ _ there found')
  constants := by
    -- The later entries stand behind the earlier ones.
    obtain ⟨early, made, readsEarly⟩ := first.constants
    obtain ⟨late, made', readsLate⟩ := second.constants
    refine ⟨early ++ late, by rw [made', made, List.append_assoc], fun entry member => ?_⟩
    rcases List.mem_append.mp member with old | new
    · exact (readsEarly entry old).follow second
    · exact readsLate entry new

theorem Follows.alloc (heap : Heap) (content : HeapObject) :
    heap.Follows constructs (heap.alloc content).2 where
  grown := heap.size_le_alloc content
  objects place before after found found' := by
    obtain ⟨inside, _⟩ := Array.getElem?_eq_some_iff.mp found
    have kept : heap.objects[place]? = some after := by
      rw [← found']
      exact (Array.getElem?_push_lt inside).symm ▸ Array.getElem?_eq_getElem inside
    cases found.symm.trans kept
    exact .refl before
  constants := ⟨[], (List.append_nil _).symm, nofun⟩

theorem Follows.update {object : ObjectRef} {change : HeapObject → HeapObject}
    (becomes : ∀ held, heap.get object = .ok held → held.Becomes constructs (change held)) :
    heap.Follows constructs (heap.update object change) where
  grown := Nat.le_of_eq (heap.size_update object change).symm
  objects place before after found found' := by
    have changed : (heap.objects.modify object.index.toNat change)[place]? = some after := found'
    rw [Array.getElem?_modify, found] at changed
    split at changed
    · rename_i same
      cases changed
      exact becomes before (get_eq_ok.mpr (same ▸ found))
    · cases changed
      exact .refl before
  constants := ⟨[], (List.append_nil _).symm, nofun⟩

theorem Follows.intern (heap : Heap) (text : String) :
    heap.Follows constructs (heap.intern text).2 := by
  cases listed : heap.interned.lookup text with
  | some object =>
      rw [intern_old listed]
      exact .refl heap
  | none =>
      rw [intern_new listed]
      have allocated : heap.Follows constructs (heap.alloc (.text text)).2 := .alloc heap _
      refine ⟨allocated.grown, allocated.objects, [(text, (heap.alloc (.text text)).1)], rfl, ?_⟩
      intro entry member bounded
      cases List.mem_singleton.mp member
      have roomy : heap.Roomy 1 := by simpa [Roomy, size, Heap.alloc] using bounded
      exact ⟨.text text, get_alloc roomy, Or.inl rfl⟩

theorem Follows.weaken {more : Prop} (follows : earlier.Follows constructs later)
    (enough : constructs → more) : earlier.Follows more later :=
  ⟨follows.grown, fun place before after found found' =>
    (follows.objects place before after found found').weaken enough, follows.constants⟩

/-- As all entries of the table read in a heap, so they do in every later one. -/
theorem Follows.reads (follows : earlier.Follows constructs later)
    (reads : ∀ entry ∈ earlier.interned, earlier.Reads entry) :
    ∀ entry ∈ later.interned, later.Reads entry := by
  obtain ⟨added, made, new⟩ := follows.constants
  rw [made]
  intro entry member
  rcases List.mem_append.mp member with old | late
  · exact (reads entry old).follow follows
  · exact new entry late

/-- A text constant of a heap is the same object in every later one. -/
theorem Follows.lookup {text : String} {object : ObjectRef}
    (follows : earlier.Follows constructs later)
    (listed : earlier.interned.lookup text = some object) :
    later.interned.lookup text = some object := by
  obtain ⟨added, made, _⟩ := follows.constants
  rw [made, List.lookup_append, listed, Option.some_or]

end Heap

end StackCoroutine
