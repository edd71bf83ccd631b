import Mathlib.Data.List.Nodup
import StackCoroutine.Proofs.Saving.Places
import StackCoroutine.Proofs.Saving.Slots

/-!
The slots of a layout, counted. What a request asks for is one variable for each of some roles; the
layout exists exactly if there is room for all of them behind the method's own slots, and then they
fill that room without gap or overlap, whatever slot numbers they would have had otherwise. The
arrays are there for every category of the frames, and long enough, so that what the code does for a
frame does not depend on which variable stands in for a missing array.
-/

namespace StackCoroutine

/-- The slots a variable takes. -/
def Variable.slots (var : Variable) : List Nat := List.range' var.slot.toNat var.kind.size

namespace Taken

variable {first last : Nat} {vars : List Variable}

/-- The end of the range is known from the sizes alone, also where slot numbers do not fit. -/
theorem last_eq (taken : Taken first vars last) :
    last = first + (vars.map fun var => var.kind.size).sum := by
  induction taken with
  | nil => rfl
  | cons _ ih => rw [ih, List.map_cons, List.sum_cons, Nat.add_assoc]

/-- As long as slot numbers fit, the variables take every slot of the range once and in order. -/
theorem slots_eq (taken : Taken first vars last) (small : last ≤ 65535) :
    vars.flatMap Variable.slots = List.range' first (last - first) := by
  induction taken with
  | nil => simp
  | @cons first last kind vars later ih =>
      have higher := later.le
      have number : (UInt16.ofNat first).toNat = first := by
        rw [UInt16.toNat_ofNat']
        omega
      have length : last - first = kind.size + (last - (first + kind.size)) := by omega
      rw [List.flatMap_cons, ih small, Variable.slots, number, length, ← List.range'_append_1]

end Taken

/-- Some value of the lists has the category. -/
def occurs (lists : List (List FrameValue)) (kind : Kind) : Bool :=
  lists.any fun values => values.any fun value => value.hasKind kind

namespace SlotRequest

/-- The category of the variable that is asked for in a role, if one is. -/
def wants (request : SlotRequest) : Role → Option Kind
  | .savedFrame | .container => some .ref
  | .localsArray kind => if occurs (request.frames.map Frame.locals) kind then some .ref else none
  | .stackArray kind => if occurs (request.frames.map Frame.stack) kind then some .ref else none
  | .cache kind => if kind ∈ request.cachedKinds then some kind else none
  | .throwable => if request.needsThrowable then some .ref else none
  | .lockState => if request.hasMonitors then some .ref else none
  | .lockCounter | .lockBound => if request.hasMonitors then some .int else none

/-- Slots of all variables that are asked for. -/
def extraSlots (request : SlotRequest) : Nat := ((Role.all.filterMap request.wants).map Kind.size).sum

end SlotRequest

namespace SlotLayout

theorem occurs_iff {lists : List (List FrameValue)} {kind : Kind} :
    occurs lists kind = true ↔ ∃ values ∈ lists, 0 < countKind kind values := by
  simp [occurs, countKind, List.countP_pos_iff]

/-- Some list has values of a category exactly if the most of them are not none. -/
theorem most_pos {lists : List (List FrameValue)} {kind : Kind} :
    0 < (most lists).get kind ↔ occurs lists kind = true := by
  rw [occurs_iff]
  have counted : (most lists).get kind = (lists.map (countKind kind)).foldl max 0 := by
    cases kind <;> rfl
  constructor
  · intro positive
    by_contra none
    have zero : ∀ count ∈ lists.map (countKind kind), count = 0 := by
      intro count member
      obtain ⟨values, listed, rfl⟩ := List.mem_map.mp member
      by_contra present
      exact none ⟨values, listed, Nat.pos_of_ne_zero present⟩
    have folded : (lists.map (countKind kind)).foldl max 0 = 0 :=
      List.foldlRecOn (motive := fun sum => sum = 0) _ _ rfl fun sum same count member => by
        rw [same, zero count member]
        rfl
    omega
  · rintro ⟨values, listed, positive⟩
    exact Nat.lt_of_lt_of_le positive (countKind_le_most listed kind)

theorem takeIf_kind (needed : Bool) (kind : Kind) (first : Nat) :
    ((takeIf needed kind).run first).1.map Variable.kind = if needed then some kind else none := by
  cases needed <;> rfl

theorem takeStorage_kind (lists : List (List FrameValue)) (first : Nat) (kind : Kind) :
    (((takeStorage (most lists)).run first).1.get kind).map Variable.kind =
      if occurs lists kind then some .ref else none := by
  obtain ⟨slot, same⟩ := takeStorage_get (most lists) first kind
  rw [same, takeIf_kind]
  exact if_congr (by simpa using most_pos) rfl rfl

/-- A layout has for every role what is asked for, with or without room for it. -/
theorem plan_kind (request : SlotRequest) (first : Nat) (role : Role) :
    (((plan request).run first).1.varFor? role).map Variable.kind = request.wants role := by
  have locks : ((plan request).run first).1.locks =
      ((takeLocks request.hasMonitors).run
        ((takeIf request.needsThrowable .ref).run
          ((takeCache request.cachedKinds).run
            ((takeStorage (most (request.frames.map Frame.stack))).run
              ((takeStorage (most (request.frames.map Frame.locals))).run
                (first + 1 + 1)).2).2).2).2).1 := rfl
  cases role with
  | savedFrame | container => rfl
  | localsArray kind => exact takeStorage_kind _ _ kind
  | stackArray kind => exact takeStorage_kind _ _ kind
  | cache kind =>
      obtain ⟨slot, same⟩ := takeCache_get request.cachedKinds _ kind
      refine (congrArg (Option.map Variable.kind) same).trans ((takeIf_kind _ _ _).trans ?_)
      exact if_congr (by simp) rfl rfl
  | throwable => exact takeIf_kind _ _ _
  | lockState | lockCounter | lockBound =>
      simp only [varFor?, SlotRequest.wants, locks]
      cases request.hasMonitors <;> rfl

/-- The slots of the variables are those asked for. -/
theorem plan_last (request : SlotRequest) (first : Nat) :
    ((plan request).run first).2 = first + request.extraSlots := by
  rw [(plan_taken request first).last_eq, variableList_eq, SlotRequest.extraSlots,
    ← funext (plan_kind request first)]
  have sizes := congrArg (List.map Kind.size)
    (List.map_filterMap (g := Variable.kind) (f := ((plan request).run first).1.varFor?)
      (l := Role.all))
  rw [List.map_map] at sizes
  exact congrArg (fun numbers => first + numbers.sum) sizes

/-- A layout is made exactly if the last slot number fits. -/
theorem ofRequest?_eq_some {request : SlotRequest} {layout : SlotLayout} :
    ofRequest? request = some layout ↔
      request.maxLocals.toNat + request.extraSlots ≤ 65535 ∧
        ((plan request).run request.maxLocals.toNat).1 = layout := by
  rw [← plan_last]
  unfold ofRequest?
  rcases (plan request).run request.maxLocals.toNat with ⟨made, last⟩
  by_cases small : last ≤ 65535
  · simp [small]
  · simp [small]

theorem plan_maxLocals (request : SlotRequest) (first : Nat) :
    ((plan request).run first).1.maxLocals = UInt16.ofNat (first + request.extraSlots) := by
  rw [← plan_last]
  rfl

end SlotLayout

/-! ### Arrays -/

/-- A stored entry of the stack has a category that occurs, and is one of as many as there are. -/
theorem storedStack_place {values : List FrameValue} {stored : StoredValue}
    (member : stored ∈ storedStack values) :
    stored.kind ∈ SlotLayout.presentKinds values ∧ stored.index < countKind stored.kind values := by
  have listed := mem_storedStack member
  obtain ⟨inside, has⟩ := mem_storedValues listed
  exact ⟨mem_presentKinds inside has, storedValues_index listed⟩

theorem storedLocals_place {locals : List FrameValue} {stored : StoredValue}
    (member : stored ∈ (storedLocals locals).map Prod.fst) :
    stored.kind ∈ SlotLayout.presentKinds locals ∧ stored.index < countKind stored.kind locals := by
  rw [storedLocals_fst, List.mem_reverse] at member
  have place := storedStack_place member
  have counted : ∀ kind, countKind kind locals.reverse = countKind kind locals :=
    fun kind => List.countP_reverse
  simpa only [SlotLayout.presentKinds, counted] using place

namespace PerKind

/-- Another variable in every empty place of a family. -/
def fill (family : PerKind (Option Variable)) (spare : Variable) : PerKind (Option Variable) :=
  .ofFn fun kind => some ((family.get kind).getD spare)

theorem get_fill (family : PerKind (Option Variable)) (spare : Variable) (kind : Kind) :
    (family.fill spare).get kind = some ((family.get kind).getD spare) := by
  cases kind <;> rfl

end PerKind

namespace SlotLayout

variable (layout : SlotLayout)

/-- The layout with another variable for every array that it does not have. -/
def withSpare (spare : Variable) : SlotLayout :=
  { layout with
    localsStorage := layout.localsStorage.fill spare
    stackStorage := layout.stackStorage.fill spare }

/-- All code that moves the values of a frame, with the given number of stack entries on top. -/
def frameCode (frame : Frame) (count : Nat) : List Code :=
  [layout.allocateStack frame.stack, layout.allocateLocals frame.locals,
    layout.saveStack frame.stack count, layout.loadTop frame.stack count,
    layout.loadBelow frame.stack count, layout.saveLocals frame.locals,
    layout.loadLocals frame.locals, layout.pack frame.locals frame.stack,
    layout.unpack frame.locals frame.stack]

/-- Every value of the list has an array of its category and a place in it, which the constants in
the code are as well if the length of the array is an int. -/
structure Provides (storage : PerKind (Option Variable)) (lengths : PerKind Nat)
    (values : List FrameValue) (stored : List StoredValue) : Prop where
  array : ∀ kind ∈ presentKinds values, ∃ var, storage.get kind = some var
  length : ∀ kind, countKind kind values ≤ lengths.get kind
  place : ∀ item ∈ stored, item.kind ∈ presentKinds values ∧ item.index < lengths.get item.kind
  constant : ∀ item ∈ stored, lengths.get item.kind < 2 ^ 31 →
    (Int32.ofNat item.index).toInt = item.index ∧
      (Int32.ofNat (lengths.get item.kind)).toInt = lengths.get item.kind

/-- What a layout provides for storing a frame: arrays for its locals and its stack, places in the
container for all of them, and code that takes no variable but theirs. -/
structure Accommodates (frame : Frame) : Prop where
  locals : Provides layout.localsStorage layout.localsMax frame.locals
    ((storedLocals frame.locals).map Prod.fst)
  stack : Provides layout.stackStorage layout.stackMax frame.stack (storedStack frame.stack)
  elements : ∀ element ∈ layout.elements frame.locals frame.stack,
    0 ≤ element.1 ∧ element.1 < containerSize
  code : ∀ spare count, (layout.withSpare spare).frameCode frame count =
    layout.frameCode frame count

/-- The most values of each category in any of the lists are enough for each of them. -/
theorem provides_most {storage : PerKind (Option Variable)} {lists : List (List FrameValue)}
    {values : List FrameValue} {stored : List StoredValue} (listed : values ∈ lists)
    (array : ∀ kind ∈ presentKinds values, ∃ var, storage.get kind = some var)
    (place : ∀ item ∈ stored,
      item.kind ∈ presentKinds values ∧ item.index < countKind item.kind values) :
    Provides storage (most lists) values stored := by
  have inside : ∀ item ∈ stored, item.index < (most lists).get item.kind := fun item member =>
    Nat.lt_of_lt_of_le (place item member).2 (countKind_le_most listed _)
  refine ⟨array, countKind_le_most listed, fun item member => ⟨(place item member).1, inside item member⟩,
    fun item member int => ?_⟩
  have small := inside item member
  exact ⟨Int32.toInt_ofNat_of_lt (by omega), Int32.toInt_ofNat_of_lt int⟩

variable {layout}

theorem elements_inside {locals stack : List FrameValue} :
    ∀ element ∈ layout.elements locals stack, 0 ≤ element.1 ∧ element.1 < containerSize := by
  have first : ∀ kind, 0 ≤ Int32.ofNat (place kind) ∧ Int32.ofNat (place kind) < containerSize := by
    intro kind
    cases kind <;> decide
  have second : ∀ kind, 0 ≤ Int32.ofNat (place kind + Kind.all.length) ∧
      Int32.ofNat (place kind + Kind.all.length) < containerSize := by
    intro kind
    cases kind <;> decide
  intro element member
  rcases List.mem_append.mp member with inLocals | inStack
  · obtain ⟨kind, -, rfl⟩ := List.mem_map.mp inLocals
    exact first kind
  · obtain ⟨kind, -, rfl⟩ := List.mem_map.mp inStack
    exact second kind

theorem array_fill {storage : PerKind (Option Variable)} {kind : Kind}
    (there : ∃ var, storage.get kind = some var) (spare : Variable) :
    array (storage.fill spare) kind = array storage kind := by
  obtain ⟨var, found⟩ := there
  simp [array, PerKind.get_fill, found]

section

variable {values : List FrameValue} {arrayOf other : Kind → Variable}
  (same : ∀ kind ∈ presentKinds values, other kind = arrayOf kind)

include same

theorem allocate_congr (sizes : PerKind Nat) :
    allocate other sizes values = allocate arrayOf sizes values :=
  List.flatMap_congr fun kind present => by rw [same kind present]

/-- Code that is made for each of some stored values takes the arrays of these. -/
theorem flatMap_stored_congr {entries : List (Option StoredValue)}
    (stored : ∀ entry ∈ entries, entry ∈ storedValues values)
    (code : StoredValue → Variable → Code) :
    (entries.flatMap fun
      | none => []
      | some stored => code stored (other stored.kind)) =
    entries.flatMap fun
      | none => []
      | some stored => code stored (arrayOf stored.kind) := by
  refine List.flatMap_congr fun entry member => ?_
  cases entry with
  | none => rfl
  | some item =>
      obtain ⟨inside, has⟩ := mem_storedValues (stored _ member)
      simp only [same item.kind (mem_presentKinds inside has)]

end

/-- Where every value has its array, no other variable is taken. -/
theorem frameCode_withSpare {frame : Frame}
    (locals : ∀ kind ∈ presentKinds frame.locals, ∃ var, layout.localsStorage.get kind = some var)
    (stack : ∀ kind ∈ presentKinds frame.stack, ∃ var, layout.stackStorage.get kind = some var)
    (spare : Variable) (count : Nat) :
    (layout.withSpare spare).frameCode frame count = layout.frameCode frame count := by
  have localsSame : ∀ kind ∈ presentKinds frame.locals,
      (layout.withSpare spare).localsArray kind = layout.localsArray kind :=
    fun kind present => array_fill (locals kind present) spare
  have stackSame : ∀ kind ∈ presentKinds frame.stack,
      (layout.withSpare spare).stackArray kind = layout.stackArray kind :=
    fun kind present => array_fill (stack kind present) spare
  have elements : (layout.withSpare spare).elements frame.locals frame.stack =
      layout.elements frame.locals frame.stack := by
    unfold SlotLayout.elements
    congr 1
    · exact List.map_congr_left fun kind present => by rw [localsSame kind present]
    · exact List.map_congr_left fun kind present => by rw [stackSame kind present]
  have item : ∀ stored ∈ storedLocals frame.locals,
      (layout.withSpare spare).localsArray stored.1.kind = layout.localsArray stored.1.kind :=
    fun stored member =>
      localsSame _ (storedLocals_place (List.mem_map_of_mem member)).1
  have pushed : ∀ entries : List (Option StoredValue),
      (∀ entry ∈ entries, entry ∈ storedValues frame.stack) →
        (layout.withSpare spare).pushAll entries = layout.pushAll entries := by
    intro entries inside
    exact flatMap_stored_congr stackSame (fun entry member => inside entry (by simpa using member))
      StoredValue.load
  -- Every piece of code asks only for arrays of categories that its own list of values has.
  unfold frameCode
  congr 1
  · exact allocate_congr stackSame _
  congr 1
  · exact allocate_congr localsSame _
  congr 1
  · exact flatMap_stored_congr stackSame (fun entry member => List.mem_of_mem_take member)
      fun stored array => [array.load, .swap, .intConst (Int32.ofNat stored.index), .swap,
        .arrayStore stored.kind]
  congr 1
  · exact pushed _ fun entry member => List.mem_of_mem_take member
  congr 1
  · exact pushed _ fun entry member => List.mem_of_mem_drop member
  congr 1
  · exact List.flatMap_congr fun stored member => by simp only [item stored member]
  congr 1
  · exact List.flatMap_congr fun stored member => by simp only [item stored member]
  congr 1
  · unfold pack
    rw [elements]
    rfl
  · unfold unpack
    rw [elements]
    rfl

theorem ofRequest?_accommodates {request : SlotRequest}
    (planned : ofRequest? request = some layout) {frame : Frame} (listed : frame ∈ request.frames) :
    layout.Accommodates frame := by
  have serves := ofRequest?_serves planned
  have locals : ∀ kind ∈ presentKinds frame.locals, ∃ var, layout.localsStorage.get kind = some var :=
    fun kind present => ⟨_, serves.localsStorage frame listed kind present⟩
  have stack : ∀ kind ∈ presentKinds frame.stack, ∃ var, layout.stackStorage.get kind = some var :=
    fun kind present => ⟨_, serves.stackStorage frame listed kind present⟩
  refine ⟨?_, ?_, elements_inside, frameCode_withSpare locals stack⟩
  · rw [serves.localsMax]
    exact provides_most (List.mem_map_of_mem listed) locals fun item => storedLocals_place
  · rw [serves.stackMax]
    exact provides_most (List.mem_map_of_mem listed) stack fun item => storedStack_place

/-- A layout exists exactly if the slots asked for fit behind the method's own. Then it has a variable
of the right category in exactly the roles asked for, no two of them share a slot, together they
fill the slots between the method's own and the new number of slots, and every frame asked for is
accommodated. -/
theorem ofRequest?_fills (request : SlotRequest) :
    ((ofRequest? request).isSome ↔ request.maxLocals.toNat + request.extraSlots ≤ 65535) ∧
    ∀ layout, ofRequest? request = some layout →
      layout.maxLocals.toNat = request.maxLocals.toNat + request.extraSlots ∧
      (∀ role, (layout.varFor? role).map Variable.kind = request.wants role) ∧
      (∀ role other var var', layout.varFor? role = some var → layout.varFor? other = some var' →
        role ≠ other → var.slots.Disjoint var'.slots) ∧
      (∀ slot, (∃ role var, layout.varFor? role = some var ∧ slot ∈ var.slots) ↔
        request.maxLocals.toNat ≤ slot ∧ slot < layout.maxLocals.toNat) ∧
      ∀ frame ∈ request.frames, layout.Accommodates frame := by
  refine ⟨?_, fun layout planned => ?_⟩
  · simp only [Option.isSome_iff_exists, ofRequest?_eq_some, exists_and_left, exists_eq', and_true]
  obtain ⟨small, made⟩ := ofRequest?_eq_some.mp planned
  have taken := plan_taken request request.maxLocals.toNat
  rw [plan_last, made] at taken
  have slots := taken.slots_eq small
  have last : layout.maxLocals.toNat = request.maxLocals.toNat + request.extraSlots := by
    rw [← made, plan_maxLocals, UInt16.toNat_ofNat']
    omega
  refine ⟨last, fun role => made ▸ plan_kind request _ role, ?_, fun slot => ?_,
    fun frame => ofRequest?_accommodates planned⟩
  · -- The slots of all variables in turn are a range, which lists no slot twice.
    have once : (layout.variableList.flatMap Variable.slots).Nodup := slots ▸ List.nodup_range'
    intro role other var var' found found' distinct
    exact pairwise_roles (List.nodup_flatMap.mp once).2 (fun _ _ => List.Disjoint.symm) found found'
      distinct
  · have covered : slot ∈ layout.variableList.flatMap Variable.slots ↔
        request.maxLocals.toNat ≤ slot ∧ slot < layout.maxLocals.toNat := by
      rw [slots, List.mem_range'_1, last]
      omega
    rw [← covered, List.mem_flatMap, variableList_eq]
    simp only [List.mem_filterMap]
    constructor
    · rintro ⟨role, var, found, inside⟩
      exact ⟨var, ⟨role, role.mem_all, found⟩, inside⟩
    · rintro ⟨var, ⟨role, -, found⟩, inside⟩
      exact ⟨role, var, found, inside⟩

/-- A request for everything that there is, with fifteen slots. -/
def crowded (maxLocals : UInt16) : SlotRequest :=
  { maxLocals
    contextSlot := 0
    frames := [⟨[.reference "demo/C", .int], [.double]⟩, ⟨[.long, .uninitialized], [.null, .null]⟩]
    cachedKinds := [.long, .double, .long]
    needsThrowable := true
    hasMonitors := true }

theorem ofRequest?_fills_crowded :
    (ofRequest? (crowded 65521)).isSome = false ∧
    ∃ layout, ofRequest? (crowded 65520) = some layout ∧
      (layout.varFor? (.cache .double)).map Variable.kind = some .double ∧
      (∃ role var, layout.varFor? role = some var ∧ 65534 ∈ var.slots) ∧
      countKind .ref [.null, .null] ≤ layout.stackMax.get .ref := by
  obtain ⟨layout, planned⟩ :=
    Option.isSome_iff_exists.mp ((ofRequest?_fills (crowded 65520)).1.mpr (by decide))
  obtain ⟨last, kinds, -, filled, frames⟩ := (ofRequest?_fills (crowded 65520)).2 layout planned
  refine ⟨?_, layout, planned, kinds _, (filled 65534).mpr ?_, ?_⟩
  · rw [Bool.eq_false_iff, ne_eq, (ofRequest?_fills (crowded 65521)).1]
    decide
  · rw [last]
    decide
  · exact (frames ⟨[.long, .uninitialized], [.null, .null]⟩ (by decide)).stack.length .ref

end SlotLayout

end StackCoroutine
