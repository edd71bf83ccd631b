import StackCoroutine.Instrument.FrameStorage
import StackCoroutine.Proofs.Frame.Shape

/-!
The variables of a slot layout. They are taken one behind the other, from the first slot that is not
the method's own, so each has its slots for itself; and there is a variable for everything that the
request asked for.
-/

namespace StackCoroutine

/-- What a slot holds when it is used as the variable. -/
def Variable.fact (var : Variable) : Nat × Kind := (var.slot.toNat, var.kind)

/-- The variables stand one behind the other from the first slot up to the last. -/
inductive Taken : Nat → List Variable → Nat → Prop where
  | nil {first} : Taken first [] first
  | cons {first last kind vars} : Taken (first + Kind.size kind) vars last →
      Taken first (⟨UInt16.ofNat first, kind⟩ :: vars) last

namespace Taken

variable {first middle last : Nat} {vars others : List Variable}

theorem append (front : Taken first vars middle) (back : Taken middle others last) :
    Taken first (vars ++ others) last := by
  induction front with
  | nil => exact back
  | cons _ ih => exact .cons (ih back)

theorem le (taken : Taken first vars last) : first ≤ last := by
  induction taken with
  | nil => exact Nat.le_refl _
  | cons _ ih => omega

/-- As long as slot numbers fit, every variable lies within the range taken. -/
theorem bounds (taken : Taken first vars last) (small : last ≤ 65535) :
    ∀ var ∈ vars, first ≤ var.slot.toNat ∧ var.slot.toNat + var.kind.size ≤ last := by
  induction taken with
  | nil => simp
  | @cons first last kind vars later ih =>
      intro var member
      have positive := kind.size_pos
      have higher := later.le
      rcases List.mem_cons.mp member with rfl | tail
      · have number : (UInt16.ofNat first).toNat = first := by
          simp only [UInt16.toNat_ofNat']
          omega
        simp only [number]
        omega
      · have inside := ih small var tail
        omega

/-- No two variables share a slot. -/
theorem coherent (taken : Taken first vars last) (small : last ≤ 65535) :
    ∀ var ∈ vars, ∀ other ∈ vars, var.fact = other.fact ∨ Apart var.fact other.fact := by
  induction taken with
  | nil => simp
  | @cons first last kind vars later ih =>
      have above := later.bounds small
      have positive := kind.size_pos
      have higher := later.le
      have number : (UInt16.ofNat first).toNat = first := by
        simp only [UInt16.toNat_ofNat']
        omega
      intro var member other member'
      rcases List.mem_cons.mp member with rfl | tail <;>
        rcases List.mem_cons.mp member' with rfl | tail'
      · exact Or.inl rfl
      · have beyond := above other tail'
        exact Or.inr (Or.inl (by simpa [Variable.fact, number] using beyond.1))
      · have beyond := above var tail
        exact Or.inr (Or.inr (by simpa [Variable.fact, number] using beyond.1))
      · exact ih small var tail other tail'

end Taken

namespace SlotLayout

theorem take_taken (kind : Kind) (first : Nat) :
    Taken first [((take kind).run first).1] ((take kind).run first).2 :=
  .cons .nil

theorem takeIf_taken (needed : Bool) (kind : Kind) (first : Nat) :
    Taken first ((takeIf needed kind).run first).1.toList ((takeIf needed kind).run first).2 := by
  cases needed
  · exact .nil
  · exact .cons .nil

end SlotLayout

namespace PerKind

/-- The variables of a family in the order of the categories listed. -/
def inOrder (family : PerKind (Option Variable)) (kinds : List Kind) : List Variable :=
  kinds.flatMap fun kind => (family.get kind).toList

theorem get_mem {family : PerKind (Option Variable)} {kinds : List Kind} {kind : Kind}
    {var : Variable} (listed : kind ∈ kinds) (found : family.get kind = some var) :
    var ∈ family.inOrder kinds :=
  List.mem_flatMap.mpr ⟨kind, listed, by simp [found]⟩

end PerKind

namespace SlotLayout

/-- The order in which variables for results are taken. -/
def cacheOrder : List Kind := [.int, .long, .float, .double, .ref]

theorem takeStorage_taken (counts : PerKind Nat) (first : Nat) :
    Taken first (((takeStorage counts).run first).1.inOrder Kind.all)
      ((takeStorage counts).run first).2 :=
  (takeIf_taken _ _ _).append ((takeIf_taken _ _ _).append ((takeIf_taken _ _ _).append
    ((takeIf_taken _ _ _).append ((takeIf_taken _ _ _).append .nil))))

theorem takeStorage_get (counts : PerKind Nat) (first : Nat) (kind : Kind) :
    ∃ slot, ((takeStorage counts).run first).1.get kind =
      ((takeIf (0 < counts.get kind) .ref).run slot).1 := by
  cases kind <;> exact ⟨_, rfl⟩

theorem takeCache_taken (kinds : List Kind) (first : Nat) :
    Taken first (((takeCache kinds).run first).1.inOrder cacheOrder)
      ((takeCache kinds).run first).2 :=
  (takeIf_taken _ _ _).append ((takeIf_taken _ _ _).append ((takeIf_taken _ _ _).append
    ((takeIf_taken _ _ _).append ((takeIf_taken _ _ _).append .nil))))

theorem takeCache_get (kinds : List Kind) (first : Nat) (kind : Kind) :
    ∃ slot, ((takeCache kinds).run first).1.get kind =
      ((takeIf (kinds.contains kind) kind).run slot).1 := by
  cases kind <;> exact ⟨_, rfl⟩

end SlotLayout

/-- The variables of monitor tracking. -/
def LockVariables.list (locks : LockVariables) : List Variable :=
  [locks.state, locks.counter, locks.bound]

namespace SlotLayout

theorem takeLocks_taken (needed : Bool) (first : Nat) :
    Taken first (((takeLocks needed).run first).1.toList.flatMap LockVariables.list)
      ((takeLocks needed).run first).2 := by
  cases needed
  · exact .nil
  · exact .cons (.cons (.cons .nil))

/-- All variables, in the order of their slots. -/
def variableList (layout : SlotLayout) : List Variable :=
  [layout.savedFrame, layout.container] ++ layout.localsStorage.inOrder Kind.all ++
    layout.stackStorage.inOrder Kind.all ++ layout.cache.inOrder cacheOrder ++
    layout.throwable.toList ++ layout.locks.toList.flatMap LockVariables.list

theorem plan_taken (request : SlotRequest) (first : Nat) :
    Taken first ((plan request).run first).1.variableList ((plan request).run first).2 :=
  (((((take_taken .ref _).append (take_taken .ref _)).append (takeStorage_taken _ _)).append
    (takeStorage_taken _ _)).append (takeCache_taken _ _)).append (takeIf_taken _ _ _) |>.append
    (takeLocks_taken _ _)

/-- What a layout provides for a request: its variables keep clear of the method's own slots and of
each other, and there is one of the right category for everything that is stored. -/
structure Serves (layout : SlotLayout) (request : SlotRequest) : Prop where
  context : layout.context = ⟨request.contextSlot, .ref⟩
  room : request.maxLocals.toNat ≤ layout.maxLocals.toNat
  bounds : ∀ var ∈ layout.variableList, request.maxLocals.toNat ≤ var.slot.toNat ∧
    var.slot.toNat + var.kind.size ≤ layout.maxLocals.toNat
  coherent : ∀ var ∈ layout.variableList, ∀ other ∈ layout.variableList,
    var.fact = other.fact ∨ Apart var.fact other.fact
  savedFrame : layout.savedFrame.kind = .ref
  container : layout.container.kind = .ref
  locals : ∀ frame ∈ request.frames, ∀ kind ∈ presentKinds frame.locals,
    layout.localsArray kind ∈ layout.variableList ∧ (layout.localsArray kind).kind = .ref
  stack : ∀ frame ∈ request.frames, ∀ kind ∈ presentKinds frame.stack,
    layout.stackArray kind ∈ layout.variableList ∧ (layout.stackArray kind).kind = .ref
  localsStorage : ∀ frame ∈ request.frames, ∀ kind ∈ presentKinds frame.locals,
    layout.localsStorage.get kind = some (layout.localsArray kind)
  stackStorage : ∀ frame ∈ request.frames, ∀ kind ∈ presentKinds frame.stack,
    layout.stackStorage.get kind = some (layout.stackArray kind)
  localsMax : layout.localsMax = most (request.frames.map Frame.locals)
  stackMax : layout.stackMax = most (request.frames.map Frame.stack)
  cache : ∀ kind ∈ request.cachedKinds, ∃ var, layout.cache.get kind = some var ∧
    var.kind = kind ∧ var ∈ layout.variableList
  throwable : request.needsThrowable = true → ∃ var, layout.throwable = some var ∧
    var.kind = .ref ∧ var ∈ layout.variableList
  tracked : layout.locks.isSome = request.hasMonitors
  locks : ∀ locks, layout.locks = some locks → locks.state.kind = .ref ∧
    locks.counter.kind = .int ∧ locks.bound.kind = .int ∧
    ∀ var ∈ locks.list, var ∈ layout.variableList

theorem le_foldl_max (numbers : List Nat) (start : Nat) :
    start ≤ numbers.foldl max start ∧ ∀ number ∈ numbers, number ≤ numbers.foldl max start := by
  induction numbers generalizing start with
  | nil => simp
  | cons first rest ih =>
      obtain ⟨most, others⟩ := ih (max start first)
      simp only [List.foldl_cons, List.mem_cons, forall_eq_or_imp]
      exact ⟨by omega, by omega, others⟩

theorem countKind_le_most {lists : List (List FrameValue)} {values : List FrameValue}
    (listed : values ∈ lists) (kind : Kind) : countKind kind values ≤ (most lists).get kind := by
  have counted : (most lists).get kind = (lists.map (countKind kind)).foldl max 0 := by
    cases kind <;> rfl
  rw [counted]
  exact (le_foldl_max _ 0).2 _ (List.mem_map_of_mem listed)

theorem takeStorage_serves {lists : List (List FrameValue)} (first : Nat)
    {values : List FrameValue} (listed : values ∈ lists) {kind : Kind}
    (present : kind ∈ presentKinds values) :
    ∃ var, ((takeStorage (most lists)).run first).1.get kind = some var ∧ var.kind = .ref := by
  obtain ⟨slot, same⟩ := takeStorage_get (most lists) first kind
  have counted : 0 < countKind kind values := by
    simpa using (List.mem_filter.mp present).2
  have needed : decide (0 < (most lists).get kind) = true := by
    simpa using Nat.lt_of_lt_of_le counted (countKind_le_most listed kind)
  rw [same, needed]
  exact ⟨_, rfl, rfl⟩

theorem mem_all (kind : Kind) : kind ∈ Kind.all := by cases kind <;> decide

theorem ofRequest?_serves {request : SlotRequest} {layout : SlotLayout}
    (planned : ofRequest? request = some layout) : layout.Serves request := by
  have taken := plan_taken request request.maxLocals.toNat
  have same : layout = ((plan request).run request.maxLocals.toNat).1 ∧
      ((plan request).run request.maxLocals.toNat).2 ≤ 65535 := by
    unfold ofRequest? at planned
    rcases outcome : (plan request).run request.maxLocals.toNat with ⟨made, last⟩
    simp only [outcome] at planned
    split at planned
    · rename_i small
      exact ⟨(Option.some.inj planned).symm, small⟩
    · cases planned
  obtain ⟨rfl, small⟩ := same
  have last : ((plan request).run request.maxLocals.toNat).1.maxLocals.toNat =
      ((plan request).run request.maxLocals.toNat).2 := by
    have written : ((plan request).run request.maxLocals.toNat).1.maxLocals =
        UInt16.ofNat ((plan request).run request.maxLocals.toNat).2 := rfl
    rw [written, UInt16.toNat_ofNat']
    omega
  -- Every category of a frame has its array.
  have localsStored : ∀ frame ∈ request.frames, ∀ kind ∈ presentKinds frame.locals,
      ∃ var, ((plan request).run request.maxLocals.toNat).1.localsStorage.get kind = some var ∧
        var.kind = .ref ∧
        ((plan request).run request.maxLocals.toNat).1.localsArray kind = var := by
    intro frame listed kind present
    obtain ⟨var, found, reference⟩ := takeStorage_serves (request.maxLocals.toNat + 1 + 1)
      (List.mem_map_of_mem listed) present
    exact ⟨var, found, reference, congrArg (fun stored => stored.getD ⟨0, .ref⟩) found⟩
  have stackStored : ∀ frame ∈ request.frames, ∀ kind ∈ presentKinds frame.stack,
      ∃ var, ((plan request).run request.maxLocals.toNat).1.stackStorage.get kind = some var ∧
        var.kind = .ref ∧
        ((plan request).run request.maxLocals.toNat).1.stackArray kind = var := by
    intro frame listed kind present
    obtain ⟨var, found, reference⟩ := takeStorage_serves ((takeStorage _).run _).2
      (List.mem_map_of_mem listed) present
    exact ⟨var, found, reference, congrArg (fun stored => stored.getD ⟨0, .ref⟩) found⟩
  refine {
    context := rfl
    room := last ▸ taken.le
    bounds := last ▸ taken.bounds small
    coherent := taken.coherent small
    savedFrame := rfl
    container := rfl
    locals := ?_
    stack := ?_
    localsStorage := ?_
    stackStorage := ?_
    localsMax := rfl
    stackMax := rfl
    cache := ?_
    throwable := ?_
    tracked := ?_
    locks := ?_ }
  · intro frame listed kind present
    obtain ⟨var, found, reference, array⟩ := localsStored frame listed kind present
    rw [array]
    refine ⟨?_, reference⟩
    have inside := PerKind.get_mem (mem_all kind) found
    simp only [variableList, List.mem_append]
    exact Or.inl (Or.inl (Or.inl (Or.inl (Or.inr inside))))
  · intro frame listed kind present
    obtain ⟨var, found, reference, array⟩ := stackStored frame listed kind present
    rw [array]
    refine ⟨?_, reference⟩
    have inside := PerKind.get_mem (mem_all kind) found
    simp only [variableList, List.mem_append]
    exact Or.inl (Or.inl (Or.inl (Or.inr inside)))
  · intro frame listed kind present
    obtain ⟨var, found, _, array⟩ := localsStored frame listed kind present
    rw [found, array]
  · intro frame listed kind present
    obtain ⟨var, found, _, array⟩ := stackStored frame listed kind present
    rw [found, array]
  · intro kind cached
    obtain ⟨slot, same⟩ := takeCache_get request.cachedKinds ((takeStorage _).run _).2 kind
    have needed : request.cachedKinds.contains kind = true := by simpa using cached
    rw [needed] at same
    refine ⟨_, same, rfl, ?_⟩
    have inside := PerKind.get_mem (show kind ∈ cacheOrder by cases kind <;> decide) same
    simp only [variableList, List.mem_append]
    exact Or.inl (Or.inl (Or.inr inside))
  · intro needed
    have taken_one : ∀ first, ((takeIf true .ref).run first).1 = some ⟨UInt16.ofNat first, .ref⟩ :=
      fun first => rfl
    rw [← needed] at taken_one
    refine ⟨_, taken_one _, rfl, ?_⟩
    simp only [variableList, List.mem_append]
    exact Or.inl (Or.inr (Option.mem_toList.mpr (taken_one _)))
  · show ((takeLocks request.hasMonitors).run _).1.isSome = request.hasMonitors
    cases request.hasMonitors <;> rfl
  · intro locks found
    have kinds : ∀ needed first, ((takeLocks needed).run first).1 = some locks →
        locks.state.kind = .ref ∧ locks.counter.kind = .int ∧ locks.bound.kind = .int := by
      intro needed first taken
      cases needed <;> cases taken
      exact ⟨rfl, rfl, rfl⟩
    obtain ⟨state, counter, bound⟩ := kinds _ _ found
    refine ⟨state, counter, bound, fun var member => ?_⟩
    simp only [variableList, List.mem_append]
    exact Or.inr (List.mem_flatMap.mpr ⟨locks, by simp [found], member⟩)

end SlotLayout

end StackCoroutine
