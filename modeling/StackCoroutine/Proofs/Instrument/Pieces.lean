import StackCoroutine.Proofs.Frame.Covers
import StackCoroutine.Proofs.Frame.Flow
import StackCoroutine.Proofs.Instrument.Layout

/-!
Rules for typing generated code. Generated code keeps to a set of local values that get along with
each other, so what it stores never costs it what it knows: along a piece of code the known local
slots only become more.
-/

namespace StackCoroutine

/-- Values that can be kept side by side in the local slots. -/
structure Usable (limit : Nat) (facts : Set (Nat × Kind)) : Prop where
  coherent : Coherent facts
  room : ∀ fact ∈ facts, fact.1 + fact.2.size ≤ limit

/-- What the variables of a layout are used for. -/
def SlotLayout.facts (layout : SlotLayout) : Set (Nat × Kind) :=
  {fact | ∃ var ∈ layout.variableList, var.fact = fact}

/-- Local slots with the objects whose monitors a frame holds. -/
def SlotLayout.lockFacts (layout : SlotLayout) : Set (Nat × Kind) :=
  {fact | ∃ locks, layout.locks = some locks ∧ locks.state.fact = fact}

structure LockVariables.Placed (locks : LockVariables) (all : Set (Nat × Kind)) : Prop where
  state : locks.state.kind = .ref ∧ locks.state.fact ∈ all
  counter : locks.counter.kind = .int ∧ locks.counter.fact ∈ all
  bound : locks.bound.kind = .int ∧ locks.bound.fact ∈ all

/-- The variables that all generated code uses have their place among the values kept. -/
structure SlotLayout.Placed (layout : SlotLayout) (limit : Nat) (all : Set (Nat × Kind)) : Prop where
  usable : Usable limit all
  context : layout.context.kind = .ref ∧ layout.context.fact ∈ all
  savedFrame : layout.savedFrame.kind = .ref ∧ layout.savedFrame.fact ∈ all
  container : layout.container.kind = .ref ∧ layout.container.fact ∈ all
  locks : ∀ locks, layout.locks = some locks → locks.Placed all

theorem SlotLayout.Placed.lockFacts {layout : SlotLayout} {limit : Nat} {all : Set (Nat × Kind)}
    (placed : layout.Placed limit all) : layout.lockFacts ⊆ all := by
  rintro fact ⟨locks, tracked, rfl⟩
  exact (placed.locks locks tracked).state.2

theorem KindFrame.Proper.coherent {frame : KindFrame} (proper : frame.Proper) :
    Coherent (Shape.ofFrame frame).locals := by
  have below : ∀ {slot other : Nat} {kind kind' : Kind},
      frame.locals[slot]? = some (some kind) → frame.locals[other]? = some (some kind') →
      slot < other → slot + kind.size ≤ other := by
    intro slot other kind kind' here there before
    by_cases wide : kind.size = 2
    · have next := proper.wide slot kind here wide
      by_cases same : other = slot + 1
      · rw [same, next] at there
        cases there
      · omega
    · cases kind <;> simp [Kind.size] at wide ⊢ <;> omega
  rintro ⟨slot, kind⟩ here ⟨other, kind'⟩ there
  rcases Nat.lt_trichotomy slot other with before | rfl | after
  · exact Or.inr (Or.inl (below here there before))
  · have same : (some (some kind) : Option (Option Kind)) = some (some kind') :=
      Eq.trans (Eq.symm here) there
    cases same
    exact Or.inl rfl
  · exact Or.inr (Or.inr (below there here after))

theorem KindFrame.Proper.inside {frame : KindFrame} (proper : frame.Proper) {fact : Nat × Kind}
    (known : fact ∈ (Shape.ofFrame frame).locals) : fact.1 + fact.2.size ≤ frame.locals.length := by
  obtain ⟨slot, kind⟩ := fact
  have here : frame.locals[slot]? = some (some kind) := known
  obtain ⟨inside, _⟩ := List.getElem?_eq_some_iff.mp here
  by_cases wide : kind.size = 2
  · obtain ⟨next, _⟩ := List.getElem?_eq_some_iff.mp (proper.wide slot kind here wide)
    simp only [wide]
    omega
  · cases kind <;> simp [Kind.size] at wide ⊢ <;> omega

/-- A frame of the method and the variables of the layout get along. -/
theorem SlotLayout.Serves.usable {layout : SlotLayout} {request : SlotRequest}
    (serves : layout.Serves request) {frame : KindFrame} (proper : frame.Proper)
    (slots : frame.locals.length = request.maxLocals.toNat) :
    Usable layout.maxLocals.toNat ((Shape.ofFrame frame).locals ∪ layout.facts) where
  coherent := by
    rintro first (own | ⟨var, member, rfl⟩) second (own' | ⟨var', member', rfl⟩)
    · exact proper.coherent first own second own'
    · have inside := proper.inside own
      have outside := serves.bounds var' member'
      exact Or.inr (Or.inl (by simp only [Variable.fact]; omega))
    · have inside := proper.inside own'
      have outside := serves.bounds var member
      exact Or.inr (Or.inr (by simp only [Variable.fact]; omega))
    · exact serves.coherent var member var' member'
  room := by
    rintro fact (own | ⟨var, member, rfl⟩)
    · have inside := proper.inside own
      have room := serves.room
      omega
    · exact (serves.bounds var member).2

theorem SlotLayout.Serves.placed {layout : SlotLayout} {request : SlotRequest}
    (serves : layout.Serves request) {frame : KindFrame} (proper : frame.Proper)
    (slots : frame.locals.length = request.maxLocals.toNat)
    (context : (request.contextSlot.toNat, .ref) ∈ (Shape.ofFrame frame).locals) :
    layout.Placed layout.maxLocals.toNat ((Shape.ofFrame frame).locals ∪ layout.facts) where
  usable := serves.usable proper slots
  context := by
    rw [serves.context]
    exact ⟨rfl, Or.inl context⟩
  savedFrame := ⟨serves.savedFrame, Or.inr ⟨_, by simp [variableList], rfl⟩⟩
  container := ⟨serves.container, Or.inr ⟨_, by simp [variableList], rfl⟩⟩
  locks := by
    intro locks tracked
    obtain ⟨state, counter, bound, listed⟩ := serves.locks locks tracked
    exact {
      state := ⟨state, Or.inr ⟨_, listed _ (by simp [LockVariables.list]), rfl⟩⟩
      counter := ⟨counter, Or.inr ⟨_, listed _ (by simp [LockVariables.list]), rfl⟩⟩
      bound := ⟨bound, Or.inr ⟨_, listed _ (by simp [LockVariables.list]), rfl⟩⟩ }

/-- Control goes on to the next instruction and nowhere else. -/
def Insn.isStraight (insn : Insn) : Bool :=
  !insn.isTerminator && insn.targets.isEmpty && match insn with
    | .label _ => false
    | _ => true

namespace Types

variable {scheme : Scheme} {base all facts : Set (Nat × Kind)} {stack : List Kind}

theorem straight {insn : Insn} {before after : Shape} (plain : insn.isStraight = true)
    (covered : base ⊆ before.locals)
    (executes : Shape.Executes scheme.limit scheme.result insn before after) :
    Types scheme base (some before) [insn] (some after) := by
  simp only [Insn.isStraight, Bool.and_eq_true, Bool.not_eq_true', List.isEmpty_iff] at plain
  obtain ⟨⟨continues, targets⟩, unlabelled⟩ := plain
  have unlabelled' : ∀ label, insn ≠ .label label := by
    rintro label rfl
    simp at unlabelled
  have types := Types.insn unlabelled' covered executes (by simp [targets])
  rwa [if_neg (by simp [continues])] at types

/-- One instruction and then the others. -/
theorem cons {start middle stop : Option Shape} {insn : Insn} {rest : List Insn}
    (first : Types scheme base start [insn] middle) (second : Types scheme base middle rest stop) :
    Types scheme base start (insn :: rest) stop :=
  first.append second

/-- An instruction with a signature. -/
theorem op {insn : Insn} {signature : Signature}
    (known : Signature.ofInsn scheme.result insn = some signature)
    (plain : insn.isStraight = true) (covered : base ⊆ facts) :
    Types scheme base (some ⟨facts, signature.takes ++ stack⟩) [insn]
      (some ⟨facts, signature.gives.toList ++ stack⟩) :=
  straight plain covered (Shape.executes_signature known)

theorem push {insn : Insn} {kind : Kind}
    (known : Signature.ofInsn scheme.result insn = some ⟨[], some kind⟩)
    (plain : insn.isStraight = true) (covered : base ⊆ facts) :
    Types scheme base (some ⟨facts, stack⟩) [insn] (some ⟨facts, kind :: stack⟩) :=
  op known plain covered

theorem unary {insn : Insn} {taken given : Kind}
    (known : Signature.ofInsn scheme.result insn = some ⟨[taken], some given⟩)
    (plain : insn.isStraight = true) (covered : base ⊆ facts) :
    Types scheme base (some ⟨facts, taken :: stack⟩) [insn] (some ⟨facts, given :: stack⟩) :=
  op known plain covered

theorem binary {insn : Insn} {top second given : Kind}
    (known : Signature.ofInsn scheme.result insn = some ⟨[top, second], some given⟩)
    (plain : insn.isStraight = true) (covered : base ⊆ facts) :
    Types scheme base (some ⟨facts, top :: second :: stack⟩) [insn]
      (some ⟨facts, given :: stack⟩) :=
  op known plain covered

theorem consume {insn : Insn} {top : Kind}
    (known : Signature.ofInsn scheme.result insn = some ⟨[top], none⟩)
    (plain : insn.isStraight = true) (covered : base ⊆ facts) :
    Types scheme base (some ⟨facts, top :: stack⟩) [insn] (some ⟨facts, stack⟩) :=
  op known plain covered

theorem consumeTwo {insn : Insn} {top second : Kind}
    (known : Signature.ofInsn scheme.result insn = some ⟨[top, second], none⟩)
    (plain : insn.isStraight = true) (covered : base ⊆ facts) :
    Types scheme base (some ⟨facts, top :: second :: stack⟩) [insn] (some ⟨facts, stack⟩) :=
  op known plain covered

theorem consumeThree {insn : Insn} {top second third : Kind}
    (known : Signature.ofInsn scheme.result insn = some ⟨[top, second, third], none⟩)
    (plain : insn.isStraight = true) (covered : base ⊆ facts) :
    Types scheme base (some ⟨facts, top :: second :: third :: stack⟩) [insn]
      (some ⟨facts, stack⟩) :=
  op known plain covered

theorem load {var : Variable} {kind : Kind} (has : var.kind = kind) (known : var.fact ∈ facts)
    (covered : base ⊆ facts) :
    Types scheme base (some ⟨facts, stack⟩) [var.load] (some ⟨facts, kind :: stack⟩) := by
  subst has
  exact straight rfl covered (Shape.executes_load known)

theorem loadSlot {kind : Kind} {slot : UInt16} (known : (slot.toNat, kind) ∈ facts)
    (covered : base ⊆ facts) :
    Types scheme base (some ⟨facts, stack⟩) [.load kind slot] (some ⟨facts, kind :: stack⟩) :=
  straight rfl covered (Shape.executes_load known)

/-- Values that get along can be stored in any order. -/
theorem storeSlot (usable : Usable scheme.limit all) {kind : Kind} {slot : UInt16}
    (member : (slot.toNat, kind) ∈ all) (covered : base ⊆ facts) (within : facts ⊆ all) :
    Types scheme base (some ⟨facts, kind :: stack⟩) [.store kind slot]
      (some ⟨insert (slot.toNat, kind) facts, stack⟩) :=
  straight rfl covered (Shape.executes_store (usable.room _ member) fun fact known =>
    usable.coherent fact (within known) _ member)

theorem store (usable : Usable scheme.limit all) {var : Variable} {kind : Kind}
    (has : var.kind = kind) (member : var.fact ∈ all) (covered : base ⊆ facts)
    (within : facts ⊆ all) :
    Types scheme base (some ⟨facts, kind :: stack⟩) [var.store]
      (some ⟨insert var.fact facts, stack⟩) := by
  subst has
  exact storeSlot usable member covered within

theorem increment {var : Variable} {amount : Int32} (has : var.kind = .int)
    (known : var.fact ∈ facts) (covered : base ⊆ facts) :
    Types scheme base (some ⟨facts, stack⟩) [.increment var.slot amount]
      (some ⟨facts, stack⟩) := by
  rw [Variable.fact, has] at known
  exact straight rfl covered (Shape.executes_increment known)

theorem pop {kind : Kind} (covered : base ⊆ facts) :
    Types scheme base (some ⟨facts, kind :: stack⟩) [.pop] (some ⟨facts, stack⟩) :=
  straight rfl covered Shape.executes_pop

theorem dup {kind : Kind} (covered : base ⊆ facts) :
    Types scheme base (some ⟨facts, kind :: stack⟩) [.dup]
      (some ⟨facts, kind :: kind :: stack⟩) :=
  straight rfl covered Shape.executes_dup

theorem swap {top second : Kind} (covered : base ⊆ facts) :
    Types scheme base (some ⟨facts, top :: second :: stack⟩) [.swap]
      (some ⟨facts, second :: top :: stack⟩) :=
  straight rfl covered Shape.executes_swap

/-- A branch that may also go on. -/
theorem branch {insn : Insn} {signature : Signature} {target : Label}
    (known : Signature.ofInsn scheme.result insn = some signature)
    (plain : insn.isTerminator = false) (goes : insn.targets = [target]) (covered : base ⊆ facts)
    (below : Below (some ⟨facts, signature.gives.toList ++ stack⟩) (scheme.shapeAt target)) :
    Types scheme base (some ⟨facts, signature.takes ++ stack⟩) [insn]
      (some ⟨facts, signature.gives.toList ++ stack⟩) := by
  have unlabelled : ∀ label, insn ≠ .label label := by
    rintro label rfl
    simp [Insn.targets] at goes
  have executes : Shape.Executes scheme.limit scheme.result insn
      ⟨facts, signature.takes ++ stack⟩ ⟨facts, signature.gives.toList ++ stack⟩ :=
    Shape.executes_signature known
  have types := Types.insn unlabelled covered executes (by simpa [goes] using below)
  rwa [if_neg (by simp [plain])] at types

/-- An instruction behind which control does not go on. -/
theorem leave {insn : Insn} {signature : Signature} {stop : Option Shape}
    (known : Signature.ofInsn scheme.result insn = some signature)
    (terminator : insn.isTerminator = true) (covered : base ⊆ facts)
    (below : ∀ target ∈ insn.targets,
      Below (some ⟨facts, signature.gives.toList ++ stack⟩) (scheme.shapeAt target)) :
    Types scheme base (some ⟨facts, signature.takes ++ stack⟩) [insn] stop := by
  have unlabelled : ∀ label, insn ≠ .label label := by
    rintro label rfl
    simp [Insn.isTerminator] at terminator
  have executes : Shape.Executes scheme.limit scheme.result insn
      ⟨facts, signature.takes ++ stack⟩ ⟨facts, signature.gives.toList ++ stack⟩ :=
    Shape.executes_signature known
  have types := Types.insn unlabelled covered executes below
  rw [if_pos terminator] at types
  exact types.weaken (.refl _) (below_none stop)

theorem throws (covered : base ⊆ facts) :
    Types scheme base (some ⟨facts, .ref :: stack⟩) [.throw] none :=
  leave (show Signature.ofInsn scheme.result .throw = some ⟨[.ref], none⟩ from rfl) rfl covered
    (by simp [Insn.targets])

theorem jump {target : Label} (covered : base ⊆ facts)
    (below : Below (some ⟨facts, stack⟩) (scheme.shapeAt target)) :
    Types scheme base (some ⟨facts, stack⟩) [.jump target] none :=
  leave (show Signature.ofInsn scheme.result (.jump target) = some ⟨[], none⟩ from rfl) rfl covered
    (by simpa [Insn.targets] using below)

theorem tableSwitch {low : Int32} {default : Label} {targets : List Label} (covered : base ⊆ facts)
    (below : ∀ target ∈ default :: targets, Below (some ⟨facts, stack⟩) (scheme.shapeAt target)) :
    Types scheme base (some ⟨facts, .int :: stack⟩) [.tableSwitch low default targets] none :=
  leave (show Signature.ofInsn scheme.result (.tableSwitch low default targets) =
    some ⟨[.int], none⟩ from rfl) rfl covered below

/-- Pieces that each leave the shape as it is. -/
theorem flatMap_keep {α : Type} {items : List α} {code : α → List Insn} {shape : Option Shape}
    (piece : ∀ item ∈ items, Types scheme base shape (code item) shape) :
    Types scheme base shape (items.flatMap code) shape := by
  induction items with
  | nil => exact nil (.refl _)
  | cons first rest ih =>
      rw [List.flatMap_cons]
      exact (piece first List.mem_cons_self).append
        (ih fun item member => piece item (List.mem_cons_of_mem _ member))

/-- Pieces that each store one value. -/
theorem flatMap_store {α : Type} {items : List α} {code : α → List Insn} {fact : α → Nat × Kind}
    (covered : base ⊆ facts) (within : facts ⊆ all) (members : ∀ item ∈ items, fact item ∈ all)
    (piece : ∀ item ∈ items, ∀ known, facts ⊆ known → known ⊆ all →
      Types scheme base (some ⟨known, stack⟩) (code item)
        (some ⟨insert (fact item) known, stack⟩)) :
    Types scheme base (some ⟨facts, stack⟩) (items.flatMap code)
      (some ⟨facts ∪ {other | ∃ item ∈ items, fact item = other}, stack⟩) := by
  induction items generalizing facts with
  | nil =>
      have same : Types scheme base (some ⟨facts, stack⟩) [] (some ⟨facts, stack⟩) := nil (.refl _)
      simpa using same
  | cons first rest ih =>
      have here := piece first List.mem_cons_self facts Set.Subset.rfl within
      have later := ih (covered.trans (Set.subset_insert (fact first) facts))
        (Set.insert_subset (members first List.mem_cons_self) within)
        (fun item member => members item (List.mem_cons_of_mem _ member))
        (fun item member known above below => piece item (List.mem_cons_of_mem _ member) known
          ((Set.subset_insert _ _).trans above) below)
      have same : insert (fact first) facts ∪ {other | ∃ item ∈ rest, fact item = other} =
          facts ∪ {other | ∃ item ∈ first :: rest, fact item = other} := by
        ext other
        constructor
        · rintro ((rfl | known) | ⟨item, member, rfl⟩)
          · exact Or.inr ⟨first, List.mem_cons_self, rfl⟩
          · exact Or.inl known
          · exact Or.inr ⟨item, List.mem_cons_of_mem _ member, rfl⟩
        · rintro (known | ⟨item, member, rfl⟩)
          · exact Or.inl (Or.inr known)
          · rcases List.mem_cons.mp member with rfl | tail
            · exact Or.inl (Or.inl rfl)
            · exact Or.inr ⟨item, tail, rfl⟩
      rw [same] at later
      exact here.append later

end Types

end StackCoroutine
