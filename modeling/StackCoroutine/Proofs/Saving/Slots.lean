import Mathlib.Data.List.Pairwise
import StackCoroutine.Machine.Value
import StackCoroutine.Proofs.Instrument.Layout

/-!
The variables of generated code at run time. Each variable of a layout has a role, no two roles share a
slot, and none has one of the method's own; so what code for one role leaves in the slots is what the
others find there.
-/

namespace StackCoroutine

/-- What a variable of a layout is for. -/
inductive Role where
  | savedFrame
  | container
  | localsArray (kind : Kind)
  | stackArray (kind : Kind)
  | cache (kind : Kind)
  | throwable
  | lockState
  | lockCounter
  | lockBound
  deriving DecidableEq

/-- All roles, in the order of their slots. -/
def Role.all : List Role :=
  [.savedFrame, .container] ++ Kind.all.map .localsArray ++ Kind.all.map .stackArray ++
    SlotLayout.cacheOrder.map .cache ++ [.throwable] ++ [.lockState, .lockCounter, .lockBound]

theorem Role.mem_all (role : Role) : role ∈ Role.all := by
  cases role
  case localsArray kind | stackArray kind | cache kind => cases kind <;> decide
  all_goals decide

/-- The variables stand in the order of their slots. -/
theorem Taken.increasing {first last : Nat} {vars : List Variable} (taken : Taken first vars last)
    (small : last ≤ 65535) : vars.Pairwise fun var other => var.slot.toNat < other.slot.toNat := by
  induction taken with
  | nil => exact List.Pairwise.nil
  | @cons first last kind vars later ih =>
      refine List.pairwise_cons.mpr ⟨?_, ih small⟩
      intro other member
      have above := later.bounds small other member
      have positive := kind.size_pos
      have number : (UInt16.ofNat first).toNat = first := by
        rw [UInt16.toNat_ofNat']
        omega
      simp only [number]
      omega

namespace SlotLayout

/-- The variable of a role, if the layout has one. -/
def varFor? (layout : SlotLayout) : Role → Option Variable
  | .savedFrame => some layout.savedFrame
  | .container => some layout.container
  | .localsArray kind => layout.localsStorage.get kind
  | .stackArray kind => layout.stackStorage.get kind
  | .cache kind => layout.cache.get kind
  | .throwable => layout.throwable
  | .lockState => layout.locks.map LockVariables.state
  | .lockCounter => layout.locks.map LockVariables.counter
  | .lockBound => layout.locks.map LockVariables.bound

theorem variableList_eq (layout : SlotLayout) :
    layout.variableList = Role.all.filterMap layout.varFor? := by
  have family : ∀ (kinds : List Kind) (role : Kind → Role) (vars : PerKind (Option Variable)),
      (∀ kind, layout.varFor? (role kind) = vars.get kind) →
      (kinds.map role).filterMap layout.varFor? = vars.inOrder kinds := by
    intro kinds role vars same
    rw [List.filterMap_map, PerKind.inOrder]
    induction kinds with
    | nil => rfl
    | cons kind rest ih =>
        rw [List.flatMap_cons, ← ih, List.filterMap_cons, Function.comp_apply, same]
        cases vars.get kind <;> rfl
  have locks : [Role.lockState, .lockCounter, .lockBound].filterMap layout.varFor? =
      layout.locks.toList.flatMap LockVariables.list := by
    simp only [List.filterMap_cons, List.filterMap_nil, varFor?]
    cases layout.locks <;> rfl
  have throwable : [Role.throwable].filterMap layout.varFor? = layout.throwable.toList := by
    simp only [List.filterMap_cons, List.filterMap_nil, varFor?]
    cases layout.throwable <;> rfl
  simp only [Role.all, List.filterMap_append, locks, throwable,
    family Kind.all .localsArray layout.localsStorage fun _ => rfl,
    family Kind.all .stackArray layout.stackStorage fun _ => rfl,
    family cacheOrder .cache layout.cache fun _ => rfl]
  rfl

/-- What holds between any two variables of the list holds between those of any two roles. -/
theorem pairwise_roles {layout : SlotLayout} {related : Variable → Variable → Prop}
    (listed : layout.variableList.Pairwise related)
    (symmetric : ∀ var other, related var other → related other var) {role other : Role}
    {var var' : Variable} (found : layout.varFor? role = some var)
    (found' : layout.varFor? other = some var') (distinct : role ≠ other) : related var var' := by
  rw [variableList_eq, List.pairwise_filterMap] at listed
  let linked : Role → Role → Prop := fun role other => ∀ var, layout.varFor? role = some var →
    ∀ var', layout.varFor? other = some var' → related var var'
  have both : Std.Symm linked :=
    ⟨fun first second apart var found var' found' => symmetric _ _ (apart var' found' var found)⟩
  exact (show Role.all.Pairwise linked from listed).forall role.mem_all other.mem_all distinct
    var found var' found'

/-- The variables lie above the method's own slots, each in a slot of its own. -/
structure Spread (layout : SlotLayout) (own : Nat) : Prop where
  above : ∀ role var, layout.varFor? role = some var → own ≤ var.slot.toNat
  inside : ∀ role var, layout.varFor? role = some var → var.slot.toNat < layout.maxLocals.toNat
  apart : ∀ role other var var', layout.varFor? role = some var →
    layout.varFor? other = some var' → role ≠ other → var.slot.toNat ≠ var'.slot.toNat

theorem ofRequest?_spread {request : SlotRequest} {layout : SlotLayout}
    (planned : ofRequest? request = some layout) : layout.Spread request.maxLocals.toNat := by
  have serves := ofRequest?_serves planned
  have listed : ∀ role var, layout.varFor? role = some var → var ∈ layout.variableList := by
    intro role var found
    rw [variableList_eq]
    exact List.mem_filterMap.mpr ⟨role, role.mem_all, found⟩
  refine ⟨fun role var found => (serves.bounds var (listed role var found)).1, ?_, ?_⟩
  · intro role var found
    have bounds := (serves.bounds var (listed role var found)).2
    have positive := var.kind.size_pos
    omega
  · have taken := plan_taken request request.maxLocals.toNat
    unfold ofRequest? at planned
    rcases outcome : (plan request).run request.maxLocals.toNat with ⟨made, last⟩
    simp only [outcome] at planned taken
    split at planned
    swap
    · cases planned
    rename_i small
    cases planned
    intro role other var var' found found' distinct
    exact pairwise_roles ((taken.increasing small).imp Nat.ne_of_lt) (fun _ _ => Ne.symm) found found'
      distinct

end SlotLayout

/-- What the slots hold is the same, but for the variables of some roles. -/
structure SlotLayout.Keeps (layout : SlotLayout) (own : Nat) (roles : Set Role)
    (old new : List Value) : Prop where
  length : new.length = old.length
  own : ∀ slot < own, new[slot]? = old[slot]?
  others : ∀ role var, layout.varFor? role = some var → role ∉ roles →
    new[var.slot.toNat]? = old[var.slot.toNat]?

namespace SlotLayout.Keeps

variable {layout : SlotLayout} {own : Nat} {roles more : Set Role} {old middle new : List Value}

theorem refl : layout.Keeps own roles old old :=
  ⟨rfl, fun _ _ => rfl, fun _ _ _ _ => rfl⟩

theorem mono (keeps : layout.Keeps own roles old new) (larger : roles ⊆ more) :
    layout.Keeps own more old new :=
  ⟨keeps.length, keeps.own, fun role var found outside =>
    keeps.others role var found fun inside => outside (larger inside)⟩

theorem trans (first : layout.Keeps own roles old middle)
    (second : layout.Keeps own roles middle new) : layout.Keeps own roles old new where
  length := second.length.trans first.length
  own slot inside := (second.own slot inside).trans (first.own slot inside)
  others role var found outside :=
    (second.others role var found outside).trans (first.others role var found outside)

/-- A value is stored in the variable of a role. -/
theorem set (spread : layout.Spread own) {role : Role} {var : Variable}
    (found : layout.varFor? role = some var) (member : role ∈ roles) (value : Value) :
    layout.Keeps own roles old (old.set var.slot.toNat value) where
  length := List.length_set
  own slot inside := by
    have above := spread.above role var found
    rw [List.getElem?_set_ne (by omega)]
  others other var' found' outside := by
    have distinct : role ≠ other := fun same => outside (same ▸ member)
    rw [List.getElem?_set_ne (spread.apart role other var var' found found' distinct)]

end SlotLayout.Keeps

end StackCoroutine
