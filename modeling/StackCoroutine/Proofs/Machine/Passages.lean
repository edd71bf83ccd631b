import StackCoroutine.Proofs.Frame.Settled
import StackCoroutine.Proofs.Machine.Rules

/-!
Control flow of a run: jumps to labels, returns, exceptions and calls, and stretches of code that
control enters at the beginning and leaves at the end, loops included.
-/

namespace StackCoroutine

/-- Labels lead to where the method defines them. -/
def PreparedMethod.Resolves (method : PreparedMethod) : Prop :=
  ∀ label place, method.code[place]? = some (.label label) → method.position label = .ok place

theorem PreparedMethod.prepare_resolves {owner : String} {method : Method}
    {prepared : PreparedMethod} (made : prepare owner method = .ok prepared) :
    prepared.Resolves := by
  simp only [prepare, Outcome.bind_eq_ok, Outcome.mapError_eq_ok, Outcome.pure_eq_ok] at made
  obtain ⟨labels, collected, _, _, _, _, rfl⟩ := made
  intro label place found
  apply Outcome.mapError_eq_ok.mpr
  exact (Analysis.labelTable_resolve collected label place).mpr (by simpa using found)

/-- The instruction takes the first scene to the second and control goes on at a label. -/
def Leaps (classes : ClassTable) (insn : Insn) (before : Scene) (target : Label)
    (after : Scene) : Prop :=
  ∀ method index place, method.position target = .ok place →
    ((Execution.execute classes insn).run ⟨method, index, before.locals, before.stack⟩).run
        before.world =
      (.ok (.jump place, ⟨method, index, after.locals, after.stack⟩), after.world)

section Rules

open Execution

variable {classes : ClassTable} {locals stack : List Value} {world : World} {target : Label}

theorem jumpTo_yields {activation : Activation} {place : Nat}
    (found : activation.method.position target = .ok place) :
    Yields (jumpTo target) activation world (.jump place) activation world := by
  have seen : Yields (get : Execution Activation) activation world activation activation world := rfl
  apply seen.bind
  apply (Yields.lift (.ofMachine found)).bind
  exact Yields.pure _

theorem Leaps.jump : Leaps classes (.jump target) ⟨locals, stack, world⟩ target
    ⟨locals, stack, world⟩ :=
  fun _ _ _ found => jumpTo_yields found

theorem Leaps.branch {condition : Condition} {value : Int32}
    (holds : condition.holds value 0 = true) :
    Leaps classes (.branch condition target) ⟨locals, .int value :: stack, world⟩ target
      ⟨locals, stack, world⟩ := by
  intro method index place found
  apply Yields.popInt.bind
  rw [holds]
  exact jumpTo_yields found

theorem Does.branch {condition : Condition} {value : Int32}
    (fails : condition.holds value 0 = false) :
    Does classes (.branch condition target) ⟨locals, .int value :: stack, world⟩
      ⟨locals, stack, world⟩ := by
  apply Does.ofYields
  intro method index
  apply Yields.popInt.bind
  rw [fails]
  exact Yields.pure _

theorem Leaps.branchCompare {condition : Condition} {a b : Int32}
    (holds : condition.holds a b = true) :
    Leaps classes (.branchCompare condition target) ⟨locals, .int b :: .int a :: stack, world⟩
      target ⟨locals, stack, world⟩ := by
  intro method index place found
  apply Yields.popInt.bind
  apply Yields.popInt.bind
  rw [holds]
  exact jumpTo_yields found

theorem Does.branchCompare {condition : Condition} {a b : Int32}
    (fails : condition.holds a b = false) :
    Does classes (.branchCompare condition target) ⟨locals, .int b :: .int a :: stack, world⟩
      ⟨locals, stack, world⟩ := by
  apply Does.ofYields
  intro method index
  apply Yields.popInt.bind
  apply Yields.popInt.bind
  rw [fails]
  exact Yields.pure _

/-- A switch on the number of one of its targets. -/
theorem Leaps.tableSwitch {default : Label} {targets : List Label} {number : Nat}
    (small : number < 2 ^ 31) (listed : targets[number]? = some target) :
    Leaps classes (.tableSwitch 0 default targets)
      ⟨locals, .int (Int32.ofNat number) :: stack, world⟩ target ⟨locals, stack, world⟩ := by
  have chosen : switchTarget 0 default targets (Int32.ofNat number) = target := by
    have same : (Int32.ofNat number).toInt = number := Int32.toInt_ofNat_of_lt small
    unfold switchTarget
    rw [same]
    simp only [show (0 : Int32).toInt = 0 from rfl, Int.sub_zero]
    rw [if_pos ⟨Int.natCast_nonneg number, by omega⟩, Int.toNat_natCast, listed]
    rfl
  intro method index place found
  apply Yields.popInt.bind
  rw [chosen]
  exact jumpTo_yields found

end Rules

namespace Machine.Reaches

variable {classes : ClassTable} {method : PreparedMethod} {index : Nat} {insn : Insn}
  {before after : Scene} {callers : List Activation}

/-- A jump to a label that the method defines. -/
theorem ofLeaps {target : Label} {place : Nat} (leaps : Leaps classes insn before target after)
    (here : method.code[index]? = some insn) (resolves : method.Resolves)
    (there : method.code[place]? = some (.label target)) :
    Reaches classes (before.within method index callers) (after.within method place callers) := by
  apply single
  have executed := leaps method index place (resolves target place there)
  simp only [Machine.step, here, executed]
  rfl

theorem ofReturn {value : Option Value} {left : Activation} {world : World}
    (here : method.code[index]? = some insn)
    (returns : Execution.Yields (Execution.execute classes insn)
      ⟨method, index, before.locals, before.stack⟩ before.world (.return value) left world) :
    Reaches classes (before.within method index callers) (leave value callers, world) := by
  apply single
  have executed : ((Execution.execute classes insn).run
    ⟨method, index, before.locals, before.stack⟩).run before.world = _ := returns
  simp only [Machine.step, here, executed]

theorem ofCall {callee : PreparedMethod} {arguments : List Value} {left : Activation}
    {world : World} (here : method.code[index]? = some insn)
    (calls : Execution.Yields (Execution.execute classes insn)
      ⟨method, index, before.locals, before.stack⟩ before.world (.call callee arguments) left
      world) :
    Reaches classes (before.within method index callers)
      (enter callee arguments (left :: callers), world) := by
  apply single
  have executed : ((Execution.execute classes insn).run
    ⟨method, index, before.locals, before.stack⟩).run before.world = _ := calls
  simp only [Machine.step, here, executed]

theorem ofThrow {exception : ObjectRef} {world : World}
    (here : method.code[index]? = some insn)
    (throws : ((Execution.execute classes insn).run
      ⟨method, index, before.locals, before.stack⟩).run before.world =
        (.error (.thrown exception), world)) :
    Reaches classes (before.within method index callers)
      (unwind classes world.heap exception
        (⟨method, index, before.locals, before.stack⟩ :: callers), world) := by
  apply single
  simp only [Machine.step, here, throws]

end Machine.Reaches

/-- Control that enters the code at its beginning leaves it at its end. -/
def Carries (classes : ClassTable) (code : List Insn) (before after : Scene) : Prop :=
  ∀ (method : PreparedMethod) (index : Nat) (callers : List Activation), method.Resolves →
    method.Has index code → Machine.Reaches classes (before.within method index callers)
      (after.within method (index + code.length) callers)

namespace Carries

variable {classes : ClassTable} {code rest : List Insn} {before middle after : Scene}

theorem nil : Carries classes [] before before :=
  fun _ _ _ _ _ => .refl

theorem ofPerforms (performs : Performs classes code before after) :
    Carries classes code before after :=
  fun _ _ callers _ has => performs.reaches has callers

theorem append (front : Carries classes code before middle)
    (back : Carries classes rest middle after) : Carries classes (code ++ rest) before after := by
  intro method index callers resolves has
  rw [List.length_append, ← Nat.add_assoc]
  exact (front method index callers resolves has.left).trans
    (back method _ callers resolves has.right)

end Carries

end StackCoroutine
