import StackCoroutine.Proofs.Machine.HeapFacts
import StackCoroutine.Proofs.Outcome
import StackCoroutine.Machine.Step

/-!
The places of the machine that hold references: objects of the heap, the table of text constants,
static fields, monitors, the context of a coroutine, and the invocations in progress. A reference is
within a heap if there is an object for it. References number the objects, and there are no more
than 2 ^ 32 of them; of larger heaps nothing is said.
-/

namespace StackCoroutine

def ObjectRef.Within (size : Nat) (object : ObjectRef) : Prop :=
  size ≤ 2 ^ 32 → object.index.toNat < size

/-- All the references are to objects of a heap of that size. -/
def Within (size : Nat) (references : List ObjectRef) : Prop :=
  ∀ object ∈ references, object.Within size

section Within

variable {size larger : Nat} {references others : List ObjectRef} {object : ObjectRef}

theorem ObjectRef.Within.mono (within : object.Within size) (grown : size ≤ larger) :
    object.Within larger :=
  fun bounded => Nat.lt_of_lt_of_le (within (Nat.le_trans grown bounded)) grown

theorem Within.mono (within : Within size references) (grown : size ≤ larger) :
    Within larger references := fun object member => (within object member).mono grown

theorem Within.subset (within : Within size references) (fewer : others ⊆ references) :
    Within size others := fun object member => within object (fewer member)

@[simp] theorem within_nil : Within size [] := nofun

@[simp] theorem within_cons :
    Within size (object :: references) ↔ object.Within size ∧ Within size references :=
  List.forall_mem_cons

@[simp] theorem within_append :
    Within size (references ++ others) ↔ Within size references ∧ Within size others :=
  List.forall_mem_append

@[simp] theorem within_flatMap {α : Type} {items : List α} {refs : α → List ObjectRef} :
    Within size (items.flatMap refs) ↔ ∀ item ∈ items, Within size (refs item) := by
  constructor
  · exact fun within item member object inside =>
      within object (List.mem_flatMap.mpr ⟨item, member, inside⟩)
  · intro each object member
    obtain ⟨item, among, inside⟩ := List.mem_flatMap.mp member
    exact each item among object inside

end Within

/-! ### Where references are -/

def Value.references : Value → List ObjectRef
  | .ref object => [object]
  | _ => []

def SavedFrame.references (frame : SavedFrame Value) : List ObjectRef :=
  frame.data.references ++ frame.lockState.toList.flatMap Value.references

def Slots.references (slots : Slots) : List ObjectRef :=
  slots.flatMap fun slot => slot.2.references

def LockState.references (state : LockState Value) : List ObjectRef :=
  state.monitors.flatMap Value.references

def HeapObject.references : HeapObject → List ObjectRef
  | .instance _ fields => fields.references
  | .text _ => []
  | .array _ values => values.toList.flatMap Value.references
  | .savedFrame frame _ => frame.references
  | .lockState state => state.references

def Heap.references (heap : Heap) : List ObjectRef :=
  heap.objects.toList.flatMap HeapObject.references ++ heap.interned.map Prod.snd

def Monitor.references : Monitor → List ObjectRef
  | .object target => [target]
  | .context => []

def Monitors.references (monitors : Monitors) : List ObjectRef :=
  monitors.held.flatMap Monitor.references

def Context.references (context : Context Value) : List ObjectRef :=
  context.chain.frames.flatMap SavedFrame.references ++
    context.argumentFrames.flatMap (List.flatMap Value.references) ++
    context.payload.toList.flatMap Value.references

def World.references (world : World) : List ObjectRef :=
  world.heap.references ++ world.statics.references ++ world.monitors.references ++
    world.context.toList.flatMap Context.references

def Activation.references (activation : Activation) : List ObjectRef :=
  activation.locals.flatMap Value.references ++ activation.stack.flatMap Value.references

def Flow.references : Flow → List ObjectRef
  | .next | .jump _ => []
  | .return value => value.toList.flatMap Value.references
  | .call _ arguments => arguments.flatMap Value.references

def Outcome.references : Outcome → List ObjectRef
  | .returned value => value.toList.flatMap Value.references
  | .thrown exception => [exception]
  | .failed _ => []

def Machine.Progress.references : Progress → List ObjectRef
  | .running activations => activations.flatMap Activation.references
  | .done outcome => outcome.references

/-! ### Values, slots and saved frames -/

section Parts

variable {size : Nat}

theorem Value.ofType_references (type : ValueType) : (Value.ofType type).references = [] := by
  unfold Value.ofType
  split
  · rename_i kind _
    cases kind <;> rfl
  · rfl

theorem Slots.within {slots : Slots} :
    Within size slots.references ↔ ∀ slot ∈ slots, Within size slot.2.references :=
  within_flatMap

theorem Slots.within_get? {slots : Slots} {name : String} {value : Value}
    (within : Within size slots.references) (found : slots.get? name = some value) :
    Within size value.references := Slots.within.mp within _ (Outcome.lookup_mem found)

theorem Slots.within_insert {slots : Slots} {name : String} {value : Value}
    (within : Within size slots.references) (fits : Within size value.references) :
    Within size (slots.insert name value).references := by
  induction slots with
  | nil => simpa [Slots.insert, Slots.references] using fits
  | cons slot rest ih =>
      obtain ⟨other, held⟩ := slot
      obtain ⟨first, later⟩ := List.forall_mem_cons.mp (Slots.within.mp within)
      have tail := ih (Slots.within.mpr later)
      unfold Slots.insert
      split
      · exact Slots.within.mpr (List.forall_mem_cons.mpr ⟨fits, later⟩)
      · exact Slots.within.mpr (List.forall_mem_cons.mpr ⟨first, Slots.within.mp tail⟩)

theorem Slots.within_insertNew {slots : Slots} {name : String} {value : Value}
    (within : Within size slots.references) (fits : Within size value.references) :
    Within size (slots.insertNew name value).references := by
  unfold Slots.insertNew
  split
  · exact within
  · exact within_insert within fits

end Parts

/-! ### The heap -/

namespace Heap

variable {heap : Heap} {object : ObjectRef} {content : HeapObject}

/-- Every reference the heap holds is to one of its objects. -/
def Closed (heap : Heap) : Prop := Within heap.size heap.references

theorem closed_iff :
    heap.Closed ↔
      (∀ (place : Nat) (held : HeapObject), heap.objects[place]? = some held →
        Within heap.size held.references) ∧
      ∀ entry ∈ heap.interned, entry.2.Within heap.size := by
  unfold Closed references
  rw [within_append, within_flatMap]
  refine and_congr ⟨fun each place held found => each held ?_, fun each held member => ?_⟩ ?_
  · exact Array.mem_def.mp (Array.mem_of_getElem? found)
  · obtain ⟨place, found⟩ := Array.mem_iff_getElem?.mp (Array.mem_def.mpr member)
    exact each place held found
  · exact List.forall_mem_map

theorem Closed.get (closed : heap.Closed) (found : heap.get object = .ok content) :
    Within heap.size content.references :=
  (closed_iff.mp closed).1 _ content (get_eq_ok.mp found)

@[simp] theorem size_alloc (heap : Heap) (content : HeapObject) :
    (heap.alloc content).2.size = heap.size + 1 := Array.size_push _

theorem size_le_alloc (heap : Heap) (content : HeapObject) :
    heap.size ≤ (heap.alloc content).2.size := by
  rw [size_alloc]
  exact Nat.le_succ _

@[simp] theorem size_update (heap : Heap) (object : ObjectRef) (change : HeapObject → HeapObject) :
    (heap.update object change).size = heap.size := Array.size_modify

theorem alloc_within (heap : Heap) (content : HeapObject) :
    (heap.alloc content).1.Within (heap.size + 1) := by
  intro bounded
  show (UInt32.ofNat heap.size).toNat < heap.size + 1
  rw [UInt32.toNat_ofNat']
  omega

theorem Closed.alloc (closed : heap.Closed) (within : Within heap.size content.references) :
    (heap.alloc content).2.Closed := by
  obtain ⟨objects, interned⟩ := closed_iff.mp closed
  rw [closed_iff, size_alloc]
  refine ⟨fun place held found => ?_, fun entry member => ?_⟩
  · have old : (heap.objects.push content)[place]? = some held := found
    rw [Array.getElem?_push] at old
    split at old
    · cases old
      exact within.mono (Nat.le_succ _)
    · exact (objects place held old).mono (Nat.le_succ _)
  · exact (interned entry member).mono (Nat.le_succ _)

theorem Closed.update (closed : heap.Closed) {change : HeapObject → HeapObject}
    (keeps : ∀ held, heap.get object = .ok held → Within heap.size (change held).references) :
    (heap.update object change).Closed := by
  obtain ⟨objects, interned⟩ := closed_iff.mp closed
  rw [closed_iff, size_update]
  refine ⟨fun place held found => ?_, interned⟩
  have changed : (heap.objects.modify object.index.toNat change)[place]? = some held := found
  rw [Array.getElem?_modify] at changed
  split at changed
  · rename_i same
    obtain ⟨before, there, rfl⟩ := Option.map_eq_some_iff.mp changed
    exact keeps before (get_eq_ok.mpr (same ▸ there))
  · exact objects place held changed

theorem intern_old {text : String} (listed : heap.interned.lookup text = some object) :
    heap.intern text = (object, heap) := by
  simp [intern, listed]

/-- The object made for a text that is no constant yet. -/
theorem intern_new {text : String} (unlisted : heap.interned.lookup text = none) :
    heap.intern text = ((heap.alloc (.text text)).1,
      { (heap.alloc (.text text)).2 with
        interned := heap.interned ++ [(text, (heap.alloc (.text text)).1)] }) := by
  simp [intern, unlisted, Heap.alloc]

theorem Closed.intern (closed : heap.Closed) (text : String) :
    (heap.intern text).2.Closed ∧ heap.size ≤ (heap.intern text).2.size ∧
      (heap.intern text).1.Within (heap.intern text).2.size := by
  cases listed : heap.interned.lookup text with
  | some object =>
      rw [intern_old listed]
      exact ⟨closed, Nat.le_refl _, (closed_iff.mp closed).2 _ (Outcome.lookup_mem listed)⟩
  | none =>
      have kept : (heap.alloc (.text text)).2.Closed := closed.alloc within_nil
      have grown := closed_iff.mp kept
      have made := size_alloc heap (.text text) ▸ alloc_within heap (.text text)
      rw [intern_new listed]
      refine ⟨closed_iff.mpr ⟨grown.1, fun entry member => ?_⟩, ?_, made⟩
      · rcases List.mem_append.mp member with old | new
        · exact grown.2 entry old
        · cases List.mem_singleton.mp new
          exact made
      · exact size_le_alloc heap (.text text)

end Heap

/-! ### Chains, contexts and worlds -/

section Contexts

variable {size : Nat} {context next : Context Value}

theorem Context.within_iff :
    Within size context.references ↔
      (∀ frame ∈ context.chain.frames, Within size frame.references) ∧
      (∀ arguments ∈ context.argumentFrames, Within size (arguments.flatMap Value.references)) ∧
      ∀ value ∈ context.payload, Within size value.references := by
  unfold Context.references
  simp

end Contexts

/-- Every reference the world holds is to an object of its heap. -/
def World.Closed (world : World) : Prop := Within world.heap.size world.references

theorem World.closed_iff {world : World} :
    world.Closed ↔ world.heap.Closed ∧ Within world.heap.size world.statics.references ∧
      Within world.heap.size world.monitors.references ∧
      ∀ context ∈ world.context, Within world.heap.size context.references := by
  unfold Closed references Heap.Closed
  simp

end StackCoroutine
