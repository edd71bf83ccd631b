import StackCoroutine.Machine.Vm

/-!
Runs in segments. A run gets from one configuration to another in some number of steps; a piece of
straight code takes the slots, the operands and the world of an invocation to others, wherever in a
method it stands and whoever has called it.
-/

namespace StackCoroutine

namespace Machine

/-- A run gets from the first configuration to the second. -/
inductive Reaches (classes : ClassTable) : Progress × World → Progress × World → Prop where
  | refl {config} : Reaches classes config config
  | step {activations world last} : Reaches classes (Machine.step classes activations world) last →
      Reaches classes (.running activations, world) last

namespace Reaches

variable {classes : ClassTable} {first second third : Progress × World}

theorem trans (front : Reaches classes first second) (back : Reaches classes second third) :
    Reaches classes first third := by
  induction front with
  | refl => exact back
  | step _ ih => exact .step (ih back)

/-- One step, where its outcome is known. -/
theorem single {activations : List Activation} {world : World}
    (stepped : Machine.step classes activations world = second) :
    Reaches classes (.running activations, world) second :=
  .step (stepped ▸ .refl)

/-- A run that gets to its end ends so. -/
theorem run {outcome : Outcome} {last : World}
    (reaches : Reaches classes first (.done outcome, last)) :
    ∃ limit, Machine.run classes limit first.1 first.2 = (outcome, last) := by
  generalize ending : ((.done outcome, last) : Progress × World) = target at reaches
  induction reaches with
  | refl =>
      subst ending
      exact ⟨0, rfl⟩
  | step _ ih =>
      obtain ⟨limit, ends⟩ := ih ending
      exact ⟨limit + 1, ends⟩

end Reaches

end Machine

/-- What an instruction works on: the local slots and the operands of its invocation, and the
world. -/
structure Scene where
  locals : List Value
  /-- Top first. -/
  stack : List Value
  world : World

namespace Scene

/-- The scene as the state of an invocation. -/
def within (scene : Scene) (method : PreparedMethod) (index : Nat) (callers : List Activation) :
    Machine.Progress × World :=
  (.running (⟨method, index, scene.locals, scene.stack⟩ :: callers), scene.world)

end Scene

/-- The method has the code from the index on. -/
def PreparedMethod.Has (method : PreparedMethod) (index : Nat) (code : List Insn) : Prop :=
  ∀ place insn, code[place]? = some insn → method.code[index + place]? = some insn

namespace PreparedMethod.Has

variable {method : PreparedMethod} {index : Nat} {insn : Insn} {code rest : List Insn}

theorem head (has : method.Has index (insn :: code)) : method.code[index]? = some insn := by
  simpa using has 0 insn rfl

theorem tail (has : method.Has index (insn :: code)) : method.Has (index + 1) code := by
  intro place other found
  have there := has (place + 1) other (by simpa using found)
  rwa [show index + 1 + place = index + (place + 1) by omega]

theorem left (has : method.Has index (code ++ rest)) : method.Has index code := by
  intro place other found
  apply has
  rw [List.getElem?_append_left (List.getElem?_eq_some_iff.mp found).1]
  exact found

theorem right (has : method.Has index (code ++ rest)) :
    method.Has (index + code.length) rest := by
  intro place other found
  have there := has (code.length + place) other (by
    rw [List.getElem?_append_right (by omega)]
    simpa using found)
  rwa [Nat.add_assoc]

/-- What the method has in a place of the code is what the code has there. -/
theorem inside (has : method.Has index code) {place : Nat} (within : place < code.length)
    (there : method.code[index + place]? = some insn) : code[place]? = some insn := by
  have piece := has place _ (List.getElem?_eq_getElem within)
  rw [List.getElem?_eq_getElem within, ← piece, there]

end PreparedMethod.Has

/-- The instruction takes the first scene to the second and control goes on behind it. -/
def Does (classes : ClassTable) (insn : Insn) (before after : Scene) : Prop :=
  ∀ method index,
    ((Execution.execute classes insn).run ⟨method, index, before.locals, before.stack⟩).run
        before.world =
      (.ok (.next, ⟨method, index, after.locals, after.stack⟩), after.world)

/-- Straight code takes the first scene to the second. -/
inductive Performs (classes : ClassTable) : List Insn → Scene → Scene → Prop where
  | nil {scene} : Performs classes [] scene scene
  | cons {insn code before middle after} : Does classes insn before middle →
      Performs classes code middle after → Performs classes (insn :: code) before after

namespace Performs

variable {classes : ClassTable} {code rest : List Insn} {before middle after : Scene}

theorem single {insn : Insn} (does : Does classes insn before after) :
    Performs classes [insn] before after :=
  .cons does .nil

theorem append (front : Performs classes code before middle)
    (back : Performs classes rest middle after) : Performs classes (code ++ rest) before after := by
  induction front with
  | nil => exact back
  | cons does _ ih => exact .cons does (ih back)

/-- A run executes straight code from its beginning to its end. -/
theorem reaches (performs : Performs classes code before after) {method : PreparedMethod}
    {index : Nat} (has : method.Has index code) (callers : List Activation) :
    Machine.Reaches classes (before.within method index callers)
      (after.within method (index + code.length) callers) := by
  induction performs generalizing index with
  | nil => exact .refl
  | cons does _ ih =>
      refine .step ?_
      have later := ih has.tail
      rw [List.length_cons, show ∀ n, index + (n + 1) = index + 1 + n by omega]
      have executed := does method index
      simp only [Machine.step, has.head, executed]
      exact later

end Performs

namespace Does

variable {classes : ClassTable} {locals stack : List Value} {world : World}

theorem label (label : Label) : Does classes (.label label) ⟨locals, stack, world⟩
    ⟨locals, stack, world⟩ :=
  fun _ _ => rfl

theorem constNull : Does classes .constNull ⟨locals, stack, world⟩
    ⟨locals, .null :: stack, world⟩ :=
  fun _ _ => rfl

theorem intConst (value : Int32) : Does classes (.intConst value) ⟨locals, stack, world⟩
    ⟨locals, .int value :: stack, world⟩ :=
  fun _ _ => rfl

theorem textConst (content : String) : Does classes (.textConst content) ⟨locals, stack, world⟩
    ⟨locals, .ref (world.heap.intern content).1 :: stack,
      { world with heap := (world.heap.intern content).2 }⟩ :=
  fun _ _ => rfl

theorem pop {value : Value} : Does classes .pop ⟨locals, value :: stack, world⟩
    ⟨locals, stack, world⟩ :=
  fun _ _ => rfl

theorem dup {value : Value} : Does classes .dup ⟨locals, value :: stack, world⟩
    ⟨locals, value :: value :: stack, world⟩ :=
  fun _ _ => rfl

theorem swap {top second : Value} : Does classes .swap ⟨locals, top :: second :: stack, world⟩
    ⟨locals, second :: top :: stack, world⟩ :=
  fun _ _ => rfl

end Does

end StackCoroutine
