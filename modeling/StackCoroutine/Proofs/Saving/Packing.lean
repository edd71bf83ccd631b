import StackCoroutine.Proofs.Saving.Moves

/-!
Execution of the code that packs the arrays of a frame into a container and takes them out again, and
of the code that puts the locals back into their slots.
-/

namespace StackCoroutine

/-- Some slots of the method's own have been given values; all others are as they were. -/
structure Reloads (own : Nat) (items : List (StoredValue × UInt16)) (content : UInt16 → Value)
    (old new : List Value) : Prop where
  length : new.length = old.length
  loaded : ∀ item ∈ items, new[item.2.toNat]? = some (content item.2)
  others : ∀ place, (∀ item ∈ items, item.2.toNat ≠ place) → new[place]? = old[place]?

namespace Performs

open Does

variable {classes : ClassTable} {locals stack : List Value} {world : World}
  {arrayOf : Kind → Variable} {refs : Kind → ObjectRef} {sizes : Kind → Nat} {kinds : List Kind}

/-- Stored values go back into their slots. -/
theorem loadSlots {own : Nat} {items : List (StoredValue × UInt16)} {content : UInt16 → Value}
    (pointing : Pointing arrayOf refs kinds locals)
    (outside : ∀ kind ∈ kinds, own ≤ (arrayOf kind).slot.toNat)
    (placed : Placed sizes kinds (items.map Prod.fst)) (room : own ≤ locals.length)
    (held : ∀ item ∈ items, item.2.toNat < own ∧ item.1.value.kind = some item.1.kind ∧
      world.heap.Holds (refs item.1.kind) item.1.index (content item.2) ∧
      item.1.value.Fits classes world.heap (content item.2)) :
    ∃ locals', Performs classes (items.flatMap fun (stored, slot) =>
        stored.load (arrayOf stored.kind) ++ [.store stored.kind slot])
      ⟨locals, stack, world⟩ ⟨locals', stack, world⟩ ∧ Reloads own items content locals locals' := by
  induction items generalizing locals with
  | nil => exact ⟨locals, nil, rfl, by simp, fun _ _ => rfl⟩
  | cons first rest ih =>
      obtain ⟨stored, slot⟩ := first
      obtain ⟨inside, has, holds, fits⟩ := held _ List.mem_cons_self
      dsimp only at inside
      obtain ⟨listed, _, small⟩ := placed stored List.mem_cons_self
      obtain ⟨reference, variable_held⟩ := pointing _ listed
      have kept : Pointing arrayOf refs kinds (locals.set slot.toNat (content slot)) := by
        intro kind member
        have above := outside kind member
        rw [List.getElem?_set_ne (by omega)]
        exact pointing kind member
      obtain ⟨locals', performs, reloads⟩ := ih
        kept (fun other member => placed other (List.mem_cons_of_mem _ member))
        (by rw [List.length_set]; exact room)
        (fun other member => held other (List.mem_cons_of_mem _ member))
      refine ⟨locals', ?_, reloads.length.trans List.length_set, ?_, ?_⟩
      · rw [List.flatMap_cons]
        apply append _ performs
        apply (loadStored has reference variable_held small holds fits).append
        exact single (store (by omega) (fits.kind has))
      · intro item member
        rcases List.mem_cons.mp member with rfl | later
        -- A later item may be for the same slot, with the same content; it is the one that stays.
        · by_cases again : ∃ other ∈ rest, other.2.toNat = slot.toNat
          · obtain ⟨other, later, same⟩ := again
            have equal : other.2 = slot := UInt16.toNat_inj.mp same
            exact equal ▸ reloads.loaded other later
          · rw [reloads.others slot.toNat fun other later same => again ⟨other, later, same⟩]
            exact List.getElem?_set_self (by omega)
        · exact reloads.loaded item later
      · intro place apart
        rw [reloads.others place fun item member => apart item (List.mem_cons_of_mem _ member)]
        exact List.getElem?_set_ne (apart _ List.mem_cons_self)

/-- References go into the elements of a container. -/
theorem packCells {container : Variable} {object : ObjectRef} {length : Nat}
    {cells : List (Nat × Variable × ObjectRef)} (reference : container.kind = .ref)
    (held : locals[container.slot.toNat]? = some (.ref object))
    (spans : world.heap.Spans (fun _ => object) (fun _ => length) [.ref])
    (ready : ∀ cell ∈ cells, cell.1 < length ∧ cell.1 < 2 ^ 31 ∧ cell.2.1.kind = .ref ∧
      locals[cell.2.1.slot.toNat]? = some (.ref cell.2.2)) :
    Performs classes (cells.flatMap fun (number, array, _) =>
        [container.load, .intConst (Int32.ofNat number), array.load, .arrayStore .ref])
      ⟨locals, stack, world⟩
      ⟨locals, stack, { world with
        heap := world.heap.fill (fun _ => object)
          (cells.map fun (number, _, content) => (⟨.null, .ref, number⟩, .ref content)) }⟩ := by
  induction cells generalizing world with
  | nil => exact nil
  | cons cell rest ih =>
      obtain ⟨number, array, content⟩ := cell
      obtain ⟨inside, small, kind, here⟩ := ready _ List.mem_cons_self
      obtain ⟨values, found, size⟩ := spans .ref List.mem_cons_self
      rw [List.flatMap_cons]
      apply append
      · apply cons (load held reference.symm)
        apply cons (intConst _)
        apply cons (load here kind.symm)
        exact single (arrayStoreAt found (size ▸ inside) small rfl)
      · exact ih (spans.setElement _ _ _) fun other member =>
          ready other (List.mem_cons_of_mem _ member)

/-- The arrays of some categories come out of a container. -/
theorem unpackFamily {layout : SlotLayout} {own : Nat} (spread : layout.Spread own)
    {role : Kind → Role} {number : Kind → Nat} {object : ObjectRef}
    (injective : Function.Injective role) (assigns : layout.Assigns role arrayOf kinds)
    (length : locals.length = layout.maxLocals.toNat) (reference : layout.container.kind = .ref)
    (apart : ∀ kind, role kind ≠ .container)
    (held : locals[layout.container.slot.toNat]? = some (.ref object))
    (small : ∀ kind ∈ kinds, number kind < 2 ^ 31)
    (holds : ∀ kind ∈ kinds, world.heap.Holds object (number kind) (.ref (refs kind)))
    (spans : world.heap.Spans refs sizes kinds) :
    ∃ locals', Performs classes (kinds.flatMap fun kind =>
        [layout.container.load, .intConst (Int32.ofNat (number kind)), .arrayLoad .ref,
          .checkCast kind.arrayType.internalName, (arrayOf kind).store])
      ⟨locals, stack, world⟩ ⟨locals', stack, world⟩ ∧
      layout.Keeps own {other | ∃ kind ∈ kinds, role kind = other} locals locals' ∧
      Pointing arrayOf refs kinds locals' := by
  induction kinds generalizing locals with
  | nil =>
      exact ⟨locals, nil, .refl, fun kind member => absurd member List.not_mem_nil⟩
  | cons kind rest ih =>
      obtain ⟨found, array_reference⟩ := assigns kind List.mem_cons_self
      have inside : (arrayOf kind).slot.toNat < locals.length :=
        length ▸ spread.inside _ _ found
      have container : layout.varFor? .container = some layout.container := rfl
      obtain ⟨content, is_array, _⟩ := spans kind List.mem_cons_self
      have instance_of : (Value.ref (refs kind)).IsInstance classes world.heap
          kind.arrayType.internalName := by
        refine ⟨kind.arrayType.internalName, ?_, ?_⟩
        · unfold Value.className? Heap.className
          dsimp only
          rw [is_array]
          rfl
        · simp [Hierarchy.isAssignable, Hierarchy.isAssignableWithin]
      have first : Performs classes
          [layout.container.load, .intConst (Int32.ofNat (number kind)), .arrayLoad .ref,
            .checkCast kind.arrayType.internalName, (arrayOf kind).store]
          ⟨locals, stack, world⟩
          ⟨locals.set (arrayOf kind).slot.toNat (.ref (refs kind)), stack, world⟩ := by
        apply cons (load held reference.symm)
        apply cons (intConst _)
        apply cons (arrayLoadAt (holds kind List.mem_cons_self)
          (small kind List.mem_cons_self) rfl)
        apply cons (checkCast (Or.inr instance_of))
        exact single (store inside array_reference.symm)
      -- The container is in a slot of its own, so it is still there for the arrays that follow.
      have still : (locals.set (arrayOf kind).slot.toNat (.ref (refs kind)))[
          layout.container.slot.toNat]? = some (.ref object) := by
        rw [List.getElem?_set_ne (spread.apart _ _ _ _ found container (apart kind))]
        exact held
      obtain ⟨locals', performs, keeps, pointing⟩ := @ih
        (locals.set (arrayOf kind).slot.toNat (.ref (refs kind)))
        (fun other member => assigns other (List.mem_cons_of_mem _ member))
        (by rw [List.length_set, length]) still
        (fun other member => small other (List.mem_cons_of_mem _ member))
        (fun other member => holds other (List.mem_cons_of_mem _ member))
        (fun other member => spans other (List.mem_cons_of_mem _ member))
      refine ⟨locals', first.append performs, ?_, ?_⟩
      · have stored : layout.Keeps own {other | ∃ first ∈ kind :: rest, role first = other} locals
            (locals.set (arrayOf kind).slot.toNat (.ref (refs kind))) :=
          .set spread found (by exact ⟨kind, List.mem_cons_self, rfl⟩) _
        apply stored.trans
        apply keeps.mono
        rintro other ⟨first, member, same⟩
        exact ⟨first, List.mem_cons_of_mem _ member, same⟩
      · intro other member
        by_cases later : other ∈ rest
        · exact pointing other later
        · rw [(List.mem_cons.mp member).resolve_right later]
          -- The rest of the arrays goes into other variables, since each category has its own role.
          have untouched : role kind ∉ {another | ∃ kind ∈ rest, role kind = another} := by
            rintro ⟨another, member', equal⟩
            have same := (List.mem_cons.mp member).resolve_right later
            exact later (same ▸ injective equal ▸ member')
          rw [keeps.others _ _ found untouched, List.getElem?_set_self inside]
          exact ⟨array_reference, rfl⟩

end Performs

end StackCoroutine
