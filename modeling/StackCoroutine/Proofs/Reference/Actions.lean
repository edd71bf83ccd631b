import StackCoroutine.Proofs.Reference.Places

/-!
What the machine does to its world leaves no reference without its object. An action is sound for a
size if, run in a world whose references are all to objects and whose heap is at least of that size,
it leaves such a world, and whatever it comes to refers to objects of the heap it leaves.
-/

namespace StackCoroutine

def TypeFault.isDangling : TypeFault → Bool
  | .dangling _ => true
  | _ => false

/-- The error is that of a reference without its object. -/
def MachineError.isDangling : MachineError → Bool
  | .type fault => fault.isDangling
  | _ => false

/-- For results that refer to nothing. -/
def noReferences (_ : α) : List ObjectRef := []

@[simp] theorem within_noReferences {size : Nat} {value : α} : Within size (noReferences value) :=
  within_nil

def Value.optionReferences (value : Option Value) : List ObjectRef :=
  value.toList.flatMap Value.references

def Value.listReferences (values : List Value) : List ObjectRef := values.flatMap Value.references

/-! ### Reading the heap -/

/-- A result that refers to objects of a heap of that size, or a fault that is not of a reference. -/
def Answers (size : Nat) (refs : α → List ObjectRef) : Except TypeFault α → Prop
  | .ok value => Within size (refs value)
  | .error fault => size ≤ 2 ^ 32 → fault.isDangling = false

namespace Answers

variable {α β : Type} {size : Nat} {refs : α → List ObjectRef} {refs' : β → List ObjectRef}

theorem error {fault : TypeFault} (other : fault.isDangling = false) :
    Answers size refs (.error fault : Except TypeFault α) := fun _ => other

theorem bind {result : Except TypeFault α} {next : α → Except TypeFault β}
    (first : Answers size refs result)
    (later : ∀ value, Within size (refs value) → Answers size refs' (next value)) :
    Answers size refs' (result >>= next) := by
  cases result with
  | error fault => exact first
  | ok value => exact later value first

theorem map {result : Except TypeFault α} (first : Answers size refs result) {change : α → β}
    (kept : ∀ value, Within size (refs value) → Within size (refs' (change value))) :
    Answers size refs' (result.map change) := by
  cases result with
  | error fault => exact first
  | ok value => exact kept value first

theorem asInt (value : Value) : Answers size noReferences value.asInt := by
  cases value <;> first | exact within_nil | exact error rfl

theorem asObject {value : Value} (within : Within size value.references) :
    Answers size Option.toList value.asObject := by
  cases value <;> first | exact within | exact error rfl

theorem expectKind {value : Value} (within : Within size value.references) (kind : Kind) :
    Answers size Value.references (value.expectKind kind) := by
  unfold Value.expectKind
  split
  · exact within
  · exact error rfl

section heap

variable {heap : Heap} {object : ObjectRef}

theorem get (closed : heap.Closed) (within : object.Within heap.size) :
    Answers heap.size HeapObject.references (heap.get object) := by
  unfold Heap.get
  split
  · rename_i content found
    exact closed.get (Heap.get_eq_ok.mpr found)
  · rename_i missing
    intro bounded
    exact absurd (within bounded) (Nat.not_lt.mpr (Array.getElem?_eq_none_iff.mp missing))

theorem text (closed : heap.Closed) (within : object.Within heap.size) :
    Answers heap.size noReferences (heap.text object) :=
  (get closed within).bind fun content _ => by
    cases content <;> first | exact within_nil | exact error rfl

theorem array (closed : heap.Closed) (within : object.Within heap.size) :
    Answers heap.size (fun values => Value.listReferences values.toList) (heap.array object) :=
  (get closed within).bind fun content inside => by
    cases content <;> first | exact inside | exact error rfl

theorem className (closed : heap.Closed) (within : object.Within heap.size) :
    Answers heap.size noReferences (heap.className object) :=
  (get closed within).bind fun _ _ => within_nil

theorem display (closed : heap.Closed) {value : Value} (within : Within heap.size value.references) :
    Answers heap.size noReferences (heap.display value) := by
  cases value with
  | ref object =>
      refine (get closed (within object List.mem_cons_self)).bind fun content _ => ?_
      cases content <;> exact within_nil
  | _ => exact within_nil

theorem messageOf (closed : heap.Closed) (within : object.Within heap.size) :
    Answers heap.size Value.references (heap.messageOf object) := by
  refine (get closed within).bind fun content inside => ?_
  cases content with
  | «instance» className fields =>
      show Within heap.size ((fields.get? Exec.messageField).getD .null).references
      cases found : fields.get? Exec.messageField with
      | none => exact within_nil
      | some value => exact Slots.within_get? inside found
  | _ => exact within_nil

theorem savedFrame (closed : heap.Closed) (within : object.Within heap.size) :
    Answers heap.size SavedFrame.references (heap.savedFrame object) :=
  (get closed within).bind fun content inside => by
    cases content <;> first | exact inside | exact error rfl

theorem framePosition (closed : heap.Closed) (within : object.Within heap.size) :
    Answers heap.size noReferences (heap.framePosition object) :=
  (get closed within).bind fun content _ => by
    rcases content with _ | _ | _ | ⟨frame, _ | position⟩ | _ <;>
      first | exact within_nil | exact error rfl

theorem lockState (closed : heap.Closed) (within : object.Within heap.size) :
    Answers heap.size LockState.references (heap.lockState object) :=
  (get closed within).bind fun content inside => by
    cases content <;> first | exact inside | exact error rfl

end heap

theorem doubles (op : BinaryOp) (a b : Binary64) :
    Answers size noReferences (Arithmetic.doubles op a b) := by
  cases op <;> first | exact within_nil | exact error rfl

theorem binary? (kind : Kind) (op : BinaryOp) (a b : Value) :
    Answers size Value.optionReferences (Arithmetic.binary? kind op a b) := by
  unfold Arithmetic.binary?
  split
  · rename_i a b
    show Within size (Value.optionReferences ((Arithmetic.ints? op a b).map .int))
    cases Arithmetic.ints? op a b <;> exact within_nil
  · rename_i a b
    show Within size (Value.optionReferences ((Arithmetic.longs? op a b).map .long))
    cases Arithmetic.longs? op a b <;> exact within_nil
  · exact (doubles op _ _).map fun _ _ => within_nil
  · exact (doubles op _ _).map fun _ _ => within_nil
  · exact error rfl

theorem negate (value : Value) : Answers size Value.references (Arithmetic.negate value) := by
  cases value <;> first | exact within_nil | exact error rfl

theorem convert (value : Value) (target : Kind) :
    Answers size Value.references (Arithmetic.convert value target) := by
  cases value <;> cases target <;> first | exact within_nil | exact error rfl

theorem compare (a b : Value) : Answers size noReferences (Arithmetic.compare a b) := by
  unfold Arithmetic.compare
  split <;> first | exact within_nil | exact error rfl

end Answers

/-! ### Actions -/

/-- What an instruction that is not completed leaves behind. -/
def Abort.Answers (size : Nat) : Abort → Prop
  | .thrown exception => exception.Within size
  | .error cause => size ≤ 2 ^ 32 → cause.isDangling = false

namespace Exec

variable {α β : Type}

/-- Run in a world without dangling references, with a heap of that size, the action leaves such a
world and a heap no smaller; what it comes to is good for the size of this heap. -/
def Leads (size : Nat) (good : Nat → α → Prop) (action : Exec α) : Prop :=
  ∀ world : World, world.Closed → world.heap.size = size →
    size ≤ (action.run world).2.heap.size ∧ (action.run world).2.Closed ∧
      match (action.run world).1 with
      | .ok value => good (action.run world).2.heap.size value
      | .error cause => cause.Answers (action.run world).2.heap.size

/-- The result refers to objects of the heap the action leaves. -/
abbrev Sound (size : Nat) (refs : α → List ObjectRef) (action : Exec α) : Prop :=
  Leads size (fun left value => Within left (refs value)) action

/-- An action that makes no objects, unless it fails. -/
abbrev Steady (size : Nat) (refs : α → List ObjectRef) (action : Exec α) : Prop :=
  Leads size (fun left value => left = size ∧ Within size (refs value)) action

section

variable {size : Nat} {refs : α → List ObjectRef} {good : Nat → α → Prop} {fine : Nat → β → Prop}

theorem Leads.pure {value : α} (holds : good size value) :
    Leads size good (Pure.pure value : Exec α) := by
  rintro world closed rfl
  exact ⟨Nat.le_refl _, closed, holds⟩

theorem Leads.fail {cause : MachineError} (other : cause.isDangling = false) :
    Leads size good (Exec.fail cause : Exec α) := by
  rintro world closed rfl
  exact ⟨Nat.le_refl _, closed, fun _ => other⟩

theorem Leads.bind {action : Exec α} {next : α → Exec β} (first : Leads size good action)
    (later : ∀ left value, size ≤ left → good left value → Leads left fine (next value)) :
    Leads size fine (action >>= next) := by
  intro world closed same
  have before := first world closed same
  have step : (action >>= next).run world =
      ExceptT.bindCont next (action.run world).1 (action.run world).2 := rfl
  rw [step]
  generalize (action.run world).2 = middle at before
  revert before
  rcases (action.run world).1 with cause | value
  · exact id
  · rintro ⟨grown, kept, holds⟩
    obtain ⟨grown', after⟩ := later _ value grown holds middle kept rfl
    exact ⟨Nat.le_trans grown grown', after⟩

theorem Sound.bind {action : Exec α} {next : α → Exec β} (first : Sound size refs action)
    (later : ∀ left value, size ≤ left → Within left (refs value) →
      Leads left fine (next value)) : Leads size fine (action >>= next) := Leads.bind first later

theorem Steady.bind {action : Exec α} {next : α → Exec β} (first : Steady size refs action)
    (later : ∀ value, Within size (refs value) → Leads size fine (next value)) :
    Leads size fine (action >>= next) := by
  refine Leads.bind first ?_
  rintro _ value _ ⟨rfl, within⟩
  exact later value within

/-- Nothing follows an action that never has a result. -/
theorem Leads.never {action : Exec α} {next : α → Exec β}
    (first : Leads size (fun _ _ => False) action) : Leads size fine (action >>= next) :=
  Leads.bind first fun _ _ _ impossible => impossible.elim

/-- A steady action whose result refers to nothing. -/
theorem Steady.andThen {action : Exec α} {next : α → Exec β}
    (first : Steady size noReferences action) (later : ∀ value, Leads size fine (next value)) :
    Leads size fine (action >>= next) := first.bind fun value _ => later value

end

theorem run_reading_bind (read : Heap → Except TypeFault α) (next : α → Exec β) (world : World) :
    (reading read >>= next).run world =
      match read world.heap with
      | .ok value => (next value).run world
      | .error fault => (.error (.error (.type fault)), world) := by
  have step : (reading read >>= next).run world =
      (ofType (read world.heap) >>= next).run world := rfl
  rw [step]
  cases read world.heap <;> rfl

section

variable {size : Nat} {refs : α → List ObjectRef} {good : Nat → α → Prop}

theorem Steady.pure {value : α} (within : Within size (refs value)) :
    Steady size refs (Pure.pure value : Exec α) := Leads.pure ⟨rfl, within⟩

theorem ofType_steady {result : Except TypeFault α} (answers : Answers size refs result) :
    Steady size refs (ofType result) := by
  cases result with
  | ok value => exact Steady.pure answers
  | error fault =>
      rintro world closed rfl
      exact ⟨Nat.le_refl _, closed, answers⟩

theorem ofProtocol_steady {result : Except ProtocolError α}
    (given : ∀ value, result = .ok value → Within size (refs value)) :
    Steady size refs (ofProtocol result) := by
  cases result with
  | ok value => exact Steady.pure (given value rfl)
  | error cause => exact Leads.fail rfl

theorem reading_steady {read : Heap → Except TypeFault α}
    (answers : ∀ heap : Heap, heap.Closed → heap.size = size → Answers size refs (read heap)) :
    Steady size refs (reading read) := by
  intro world closed same
  exact ofType_steady (answers world.heap (World.closed_iff.mp closed).1 same) world closed same

theorem readingObject_steady {object : ObjectRef} {read : Heap → Except TypeFault α}
    (inside : object.Within size) (answers : ∀ {heap : Heap}, heap.Closed →
      object.Within heap.size → Answers heap.size refs (read heap)) :
    Steady size refs (reading read) :=
  reading_steady fun _ closed same => same ▸ answers closed (same ▸ inside)

/-- The heap changes to one without dangling references that is no smaller. -/
theorem changing_leads (change : Heap → α × Heap)
    (changed : ∀ heap : Heap, heap.Closed → heap.size = size →
      size ≤ (change heap).2.size ∧ (change heap).2.Closed ∧
        good (change heap).2.size (change heap).1) :
    Leads size good (changing change) := by
  intro world closed same
  obtain ⟨heap, statics, monitors, context⟩ := World.closed_iff.mp closed
  obtain ⟨grown, kept, holds⟩ := changed world.heap heap same
  rw [same] at statics monitors context
  refine ⟨grown, World.closed_iff.mpr ⟨kept, statics.mono grown, monitors.mono grown, ?_⟩, holds⟩
  exact fun current held => (context current held).mono grown

theorem alloc_sound (content : HeapObject) (within : Within size content.references) :
    Sound size (fun object => [object]) (changing fun heap => heap.alloc content) := by
  refine changing_leads _ fun heap closed same => ?_
  subst same
  rw [heap.size_alloc]
  exact ⟨Nat.le_succ _, closed.alloc within, within_cons.mpr ⟨heap.alloc_within content, within_nil⟩⟩

theorem newText_sound (content : String) :
    Sound size Value.references (changing fun heap => heap.newText content) :=
  alloc_sound (.text content) within_nil

theorem newArray_sound (element : ValueType) (length : Nat) :
    Sound size (fun object => [object]) (changing fun heap => heap.newArray element length) := by
  refine alloc_sound (.array element _) (within_flatMap.mpr fun value member => ?_)
  rw [Array.toList_replicate] at member
  rw [List.eq_of_mem_replicate member, Value.ofType_references]
  exact within_nil

theorem intern_sound (content : String) :
    Sound size (fun object => [object]) (changing fun heap => heap.intern content) := by
  refine changing_leads _ fun heap closed same => ?_
  subst same
  obtain ⟨kept, grown, within⟩ := closed.intern content
  exact ⟨grown, kept, within_cons.mpr ⟨within, within_nil⟩⟩

/-- A change of one object that lets it refer to nothing but objects. -/
theorem update_steady {object : ObjectRef} {change : HeapObject → HeapObject}
    (kept : ∀ held : HeapObject, Within size held.references →
      Within size (change held).references) :
    Steady size noReferences (changeHeap fun heap => heap.update object change) := by
  refine changing_leads (fun heap => ((), heap.update object change))
    fun heap closed same => ?_
  subst same
  rw [heap.size_update]
  refine ⟨Nat.le_refl _, closed.update fun held found => ?_, rfl, within_nil⟩
  exact kept held (closed.get found)

theorem setField_steady {object : ObjectRef} {name : String} {value : Value}
    (within : Within size value.references) :
    Steady size noReferences (changeHeap fun heap => heap.setField object name value) :=
  update_steady fun held kept => by
    cases held with
    | «instance» className fields => exact Slots.within_insert kept within
    | _ => exact kept

theorem setElement_steady {array : ObjectRef} {index : Nat} {value : Value}
    (within : Within size value.references) :
    Steady size noReferences (changeHeap fun heap => heap.setElement array index value) :=
  update_steady fun held kept => by
    cases held with
    | array element values =>
        refine within_flatMap.mpr fun other member => ?_
        rw [Array.toList_setIfInBounds] at member
        rcases List.mem_or_eq_of_mem_set member with old | rfl
        · exact within_flatMap.mp kept other old
        · exact within
    | _ => exact kept

/-- An object that is there is replaced. -/
theorem replace_steady {object : ObjectRef} {content : HeapObject} (inside : object.Within size)
    (within : Within size content.references) :
    Steady size noReferences (do
      let heap ← reading fun heap => heap.replace object content
      changeHeap fun _ => heap) := by
  intro world closed same
  rw [run_reading_bind]
  cases found : world.heap.get object with
  | ok held =>
      simp only [Heap.replace, found]
      exact update_steady (fun _ _ => within) world closed same
  | error fault =>
      have answers := Answers.get (World.closed_iff.mp closed).1 (same ▸ inside)
      rw [found] at answers
      simp only [Heap.replace, found]
      exact ⟨Nat.le_of_eq same.symm, closed, answers⟩

theorem modify_steady {change : World → World}
    (changed : ∀ world : World, world.Closed → world.heap.size = size →
      (change world).heap = world.heap ∧ (change world).Closed) :
    Steady size noReferences
      (MonadState.modifyGet fun world => ((), change world) : Exec Unit) := by
  intro world closed same
  obtain ⟨equal, kept⟩ := changed world closed same
  have left : (change world).heap.size = size := (congrArg Heap.size equal).trans same
  exact ⟨Nat.le_of_eq left.symm, kept, left, within_nil⟩

theorem raise_leads (className text : String) :
    Leads size good (raise className text : Exec α) := by
  refine Sound.bind (newText_sound text) fun left message _ within => ?_
  refine Sound.bind (alloc_sound (.instance className [(messageField, message)]) ?_) ?_
  · simpa [HeapObject.references, Slots.references] using within
  · rintro left exception _ made world closed rfl
    exact ⟨Nat.le_refl _, closed, (within_cons.mp made).1⟩

theorem nonNull_steady {value : Value} (within : Within size value.references) (action : String) :
    Steady size (fun object => [object]) (nonNull value action) := by
  refine Steady.bind (ofType_steady (Answers.asObject within)) fun object found => ?_
  cases object with
  | none => exact raise_leads _ _
  | some object => exact Steady.pure found

theorem context_steady : Steady size Context.references context := by
  rintro world closed rfl
  have kept := (World.closed_iff.mp closed).2.2.2
  obtain ⟨heap, statics, monitors, output, _ | current⟩ := world
  · exact ⟨Nat.le_refl _, closed, fun _ => rfl⟩
  · exact ⟨Nat.le_refl _, closed, rfl, kept current rfl⟩

theorem setContext_steady {context : Context Value} (within : Within size context.references) :
    Steady size noReferences (setContext context) := by
  refine modify_steady fun world closed same => ⟨rfl, World.closed_iff.mpr ?_⟩
  obtain ⟨heap, statics, monitors, _⟩ := World.closed_iff.mp closed
  refine ⟨heap, statics, monitors, ?_⟩
  rintro _ ⟨⟩
  exact same ▸ within

end

end Exec

end StackCoroutine
