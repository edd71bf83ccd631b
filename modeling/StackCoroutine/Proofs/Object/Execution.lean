import StackCoroutine.Proofs.Object.Natives
import StackCoroutine.Proofs.Reference.Execution

/-!
Instructions change objects only into what they can become. Unless a call can reach the constructor
of saved frames that the machine provides, no object becomes a saved frame.
-/

namespace StackCoroutine

/-- Some call runs the constructor of saved frames that the machine provides. -/
def ClassTable.Constructs (classes : ClassTable) : Prop :=
  ∃ start name descriptor, classes.resolve? start name descriptor = some (.native .savedFrameInit)

namespace Execution

variable {α β : Type} {constructs : Prop}

/-- In every invocation the heap the action leaves follows the one it has found. -/
def Advances (constructs : Prop) (action : Execution α) : Prop :=
  ∀ activation : Activation, Exec.Advances constructs (action.run activation)

namespace Advances

theorem pure (value : α) : Advances constructs (Pure.pure value : Execution α) :=
  fun _ => .pure _

theorem bind {action : Execution α} {next : α → Execution β} (first : Advances constructs action)
    (later : ∀ value, Advances constructs (next value)) : Advances constructs (action >>= next) :=
  fun activation => Exec.Advances.bind (first activation) fun outcome => later outcome.1 outcome.2

theorem lift {action : Exec α} (first : Exec.Advances constructs action) :
    Advances constructs (liftM action : Execution α) :=
  fun _ => Exec.Advances.bind first fun _ => .pure _

theorem push (value : Value) : Advances constructs (Execution.push value) := fun _ => .pure _

theorem pop : Advances constructs Execution.pop := by
  rintro ⟨method, index, locals, _ | ⟨value, rest⟩⟩
  · exact .fail _
  · exact .pure _

theorem popKind (kind : Kind) : Advances constructs (Execution.popKind kind) :=
  bind pop fun _ => lift (.ofType _)

theorem popInt : Advances constructs Execution.popInt := bind pop fun _ => lift (.ofType _)

theorem popObject (action : String) : Advances constructs (Execution.popObject action) :=
  bind pop fun _ => lift (.nonNull _ _)

theorem popMonitor (action : String) : Advances constructs (Execution.popMonitor action) := by
  refine bind pop fun value => ?_
  dsimp only
  split
  · refine bind (lift (.raise _ _)) fun _ => ?_
    cases value <;> first | exact pure _ | exact lift (.fail _)
  · cases value <;> first | exact pure _ | exact lift (.fail _)

theorem popMany (count : Nat) : Advances constructs (Execution.popMany count) := by
  refine bind (fun _ => .pure _) fun activation => ?_
  split
  · exact lift (.fail _)
  · exact fun _ => .pure _

theorem readLocal (slot : UInt16) : Advances constructs (Execution.readLocal slot) := by
  refine bind (fun _ => .pure _) fun activation => ?_
  split
  · exact pure _
  · exact lift (.fail _)

theorem writeLocal (slot : UInt16) (value : Value) :
    Advances constructs (Execution.writeLocal slot value) := by
  refine bind (fun _ => .pure _) fun activation => ?_
  split
  · exact fun _ => .pure _
  · exact lift (.fail _)

theorem jumpTo (label : Label) : Advances constructs (Execution.jumpTo label) :=
  bind (fun _ => .pure _) fun _ => bind (lift (.ofMachine _)) fun _ => pure _

theorem branchIf (holds : Bool) (label : Label) :
    Advances constructs (Execution.branchIf holds label) := by
  cases holds with
  | true => exact jumpTo label
  | false => exact pure Flow.next

theorem seeWorld : Advances constructs (getThe World : Execution World) :=
  fun _ world => .refl world.heap

theorem changeWorld {change : World → World} (same : ∀ world, (change world).heap = world.heap) :
    Advances constructs (modifyThe World change : Execution PUnit) := by
  intro activation world
  show world.heap.Follows constructs (change world).heap
  rw [same]
  exact .refl _

end Advances

open Exec

variable {classes : ClassTable}

theorem staticName_advances (field : FieldRef) :
    Exec.Advances constructs (staticName classes field) := by
  unfold staticName
  split
  · exact .pure _
  · exact .fail _

theorem classOf_advances (value : Value) : Exec.Advances constructs (classOf value) := by
  cases value with
  | ref object => exact .reading _
  | context => exact .pure _
  | _ => exact .fail _

theorem elementIndex_advances (array : ObjectRef) (index : Int32) :
    Exec.Advances constructs (elementIndex array index) := by
  refine .bind (.reading _) fun values => ?_
  dsimp only
  split
  · exact .pure _
  · exact .raise _ _

theorem dispatchStart_advances (dispatch : Dispatch) (target : MethodRef) (arguments : List Value) :
    Exec.Advances constructs (dispatchStart dispatch target arguments) := by
  unfold dispatchStart
  split
  · exact .pure _
  · exact .raise _ _
  · exact .pure _
  · exact classOf_advances _
  · exact .pure _

/-- A call of a method of the machine, which can be the constructor of saved frames. -/
theorem invoke_advances (constructing : classes.Constructs → constructs) (dispatch : Dispatch)
    (target : MethodRef) : Advances constructs (invoke classes dispatch target) := by
  refine .bind (.lift (.ofMachine _)) fun type => .bind (.popMany _) fun arguments => ?_
  refine .bind (.lift (dispatchStart_advances _ _ _)) fun start => ?_
  split
  · exact .pure _
  · rename_i native found
    have allowed : native = .savedFrameInit → constructs := by
      rintro rfl
      exact constructing ⟨start, _, _, found⟩
    refine .bind (.lift (native.call_advances allowed _)) fun value => ?_
    cases value with
    | none => exact .pure _
    | some value => exact .bind (.push value) fun _ => .pure _
  · exact .lift (.fail _)

/-- Only calls make saved frames of objects. -/
theorem execute_advances (insn : Insn) (constructing : ∀ dispatch target,
      insn = .invoke dispatch target → classes.Constructs → constructs) :
    Advances constructs (execute classes insn) := by
  cases insn <;> dsimp -zeta only [execute]
  case label | line | nop => exact .pure _
  case constNull | intConst | longConst | floatConst | doubleConst =>
    exact .bind (.push _) fun _ => .pure _
  case textConst =>
    exact .bind (.lift (.changing fun heap => .intern heap _)) fun _ =>
      .bind (.push _) fun _ => .pure _
  case load =>
    refine .bind (.readLocal _) fun _ => .bind (.lift (.ofType _)) fun _ => ?_
    exact .bind (.push _) fun _ => .pure _
  case store => exact .bind (.popKind _) fun _ => .bind (.writeLocal _ _) fun _ => .pure _
  case increment =>
    refine .bind (.readLocal _) fun _ => .bind (.lift (.ofType _)) fun _ => ?_
    exact .bind (.writeLocal _ _) fun _ => .pure _
  case pop => exact .bind .pop fun _ => .pure _
  case dup => exact .bind .pop fun _ => .bind (.push _) fun _ => .bind (.push _) fun _ => .pure _
  case dupBelow =>
    refine .bind .pop fun _ => .bind .pop fun _ => .bind (.push _) fun _ => ?_
    exact .bind (.push _) fun _ => .bind (.push _) fun _ => .pure _
  case swap =>
    refine .bind .pop fun _ => .bind .pop fun _ => .bind (.push _) fun _ => ?_
    exact .bind (.push _) fun _ => .pure _
  case binary =>
    refine .bind (.popKind _) fun _ => .bind (.popKind _) fun _ => ?_
    refine .bind (.lift (.ofType _)) fun result => ?_
    cases result with
    | some value => exact .bind (.push value) fun _ => .pure _
    | none => exact .bind (.lift (.raise _ _)) fun _ => .pure _
  case neg =>
    refine .bind (.popKind _) fun _ => .bind (.lift (.ofType _)) fun _ => ?_
    exact .bind (.push _) fun _ => .pure _
  case convert =>
    refine .bind (.popKind _) fun _ => .bind (.lift (.ofType _)) fun _ => ?_
    exact .bind (.push _) fun _ => .pure _
  case compare =>
    refine .bind (.popKind _) fun _ => .bind (.popKind _) fun _ => ?_
    exact .bind (.lift (.ofType _)) fun _ => .bind (.push _) fun _ => .pure _
  case jump => exact .jumpTo _
  case branch => exact .bind .popInt fun _ => .branchIf _ _
  case branchCompare => exact .bind .popInt fun _ => .bind .popInt fun _ => .branchIf _ _
  case branchNull | branchNonNull => exact .bind (.popKind _) fun _ => .branchIf _ _
  case branchSame | branchDifferent =>
    exact .bind (.popKind _) fun _ => .bind (.popKind _) fun _ => .branchIf _ _
  case tableSwitch => exact .bind .popInt fun _ => .jumpTo _
  case new className =>
    have made : Advances constructs (do
        let fields ← ofMachine (initialFields classes className)
        let object ← changing fun heap => heap.alloc (.instance className fields)
        push (.ref object)
        return .next : Execution Flow) :=
      .bind (.lift (.ofMachine _)) fun _ => .bind (.lift (.alloc _)) fun _ =>
        .bind (.push _) fun _ => .pure _
    split
    · exact .bind (.lift (.fail _)) fun _ => made
    · exact made
  case getField =>
    refine .bind (.popObject _) fun receiver => .bind (.lift (.reading _)) fun content => ?_
    dsimp only
    split
    · exact .bind (.push _) fun _ => .pure _
    · exact .bind (.lift (.fail _)) fun _ => .pure _
  case putField field =>
    refine .bind .pop fun value => .bind (.popObject _) fun receiver => ?_
    refine .bind (.lift (.reading _)) fun content => ?_
    have stored : ∀ declared : Bool, Advances constructs (do
        if !declared then fail (.noSuchField (fieldText field))
        changeHeap fun heap => heap.setField receiver field.name value
        return .next : Execution Flow) := by
      intro declared
      cases declared with
      | true => exact .bind (.lift (.setField _ _ _)) fun _ => .pure _
      | false =>
          refine .bind (.lift (.fail _)) fun _ => ?_
          exact .bind (.lift (.setField _ _ _)) fun _ => .pure _
    exact stored _
  case getStatic =>
    refine .bind (.lift (staticName_advances _)) fun _ => .bind .seeWorld fun _ => ?_
    exact .bind (.push _) fun _ => .pure _
  case putStatic =>
    refine .bind (.lift (staticName_advances _)) fun _ => .bind .pop fun _ => ?_
    exact .bind (.changeWorld fun _ => rfl) fun _ => .pure _
  case checkCast name =>
    refine .bind .pop fun value => ?_
    have pushed : Advances constructs (push value >>= fun _ => (Pure.pure Flow.next : Execution Flow)) :=
      .bind (.push _) fun _ => .pure _
    dsimp only
    split
    · refine .bind (.lift (.bind (classOf_advances _) fun _ => .pure _)) fun fits => ?_
      split
      · refine .bind (.lift (classOf_advances _)) fun _ => ?_
        exact .bind (.lift (.raise _ _)) fun _ => pushed
      · exact pushed
    · exact pushed
  case instanceOf name =>
    refine .bind .pop fun value => ?_
    have pushed : ∀ answer : Bool, Advances constructs
        (push (.int (if answer then 1 else 0)) >>= fun _ => (Pure.pure Flow.next : Execution Flow)) :=
      fun _ => .bind (.push _) fun _ => .pure _
    dsimp only
    split
    · exact pushed false
    · exact .bind (.lift (.bind (classOf_advances _) fun _ => .pure _)) pushed
  case newArray element =>
    refine .bind .popInt fun length => ?_
    have made : Advances constructs (do
        let object ← changing fun heap => heap.newArray element length.toInt.toNat
        push (.ref object)
        return .next : Execution Flow) :=
      .bind (.lift (.alloc _)) fun _ => .bind (.push _) fun _ => .pure _
    dsimp only
    split
    · exact .bind (.lift (.raise _ _)) fun _ => made
    · exact made
  case arrayLength =>
    refine .bind (.popObject _) fun _ => .bind (.lift (.reading _)) fun _ => ?_
    exact .bind (.push _) fun _ => .pure _
  case arrayLoad =>
    refine .bind .popInt fun _ => .bind (.popObject _) fun _ => ?_
    refine .bind (.lift (elementIndex_advances _ _)) fun _ => .bind (.lift (.reading _)) fun _ => ?_
    exact .bind (.lift (.ofType _)) fun _ => .bind (.push _) fun _ => .pure _
  case arrayStore =>
    refine .bind (.popKind _) fun _ => .bind .popInt fun _ => .bind (.popObject _) fun _ => ?_
    refine .bind (.lift (elementIndex_advances _ _)) fun _ => ?_
    exact .bind (.lift (.setElement _ _ _)) fun _ => .pure _
  case invoke dispatch target => exact invoke_advances (constructing dispatch target rfl) dispatch target
  case invokeDynamic => exact .lift (.fail _)
  case «return» kind =>
    cases kind with
    | none => exact .pure _
    | some kind => exact .bind (.popKind _) fun _ => .pure _
  case throw =>
    refine .bind (.popObject _) fun exception activation world => ?_
    exact .refl world.heap
  case monitorEnter =>
    exact .bind (.popMonitor _) fun _ => .bind (.changeWorld fun _ => rfl) fun _ => .pure _
  case monitorExit =>
    refine .bind (.popMonitor _) fun monitor => .bind .seeWorld fun world => ?_
    dsimp only
    split
    · exact .bind (.changeWorld fun _ => rfl) fun _ => .pure _
    · exact .bind (.lift (.raise _ _)) fun _ => .pure _

end Execution

namespace Machine

/-- The world after a step is what its instruction leaves. -/
theorem step_world {classes : ClassTable} {activation : Activation} {callers : List Activation}
    {insn : Insn} (there : activation.method.code[activation.index]? = some insn) (world : World) :
    (step classes (activation :: callers) world).2 =
      (((Execution.execute classes insn).run activation).run world).2 := by
  simp only [step, there]
  rcases ((Execution.execute classes insn).run activation).run world with
    ⟨(cause | exception) | ⟨_ | place | value | ⟨method, arguments⟩, left⟩, after⟩ <;> rfl

/-- A step changes objects only into what they can become. -/
theorem step_follows (classes : ClassTable) (activations : List Activation) (world : World) :
    world.heap.Follows classes.Constructs (step classes activations world).2.heap := by
  cases activations with
  | nil => exact .refl _
  | cons activation callers =>
      cases there : activation.method.code[activation.index]? with
      | none =>
          simp only [step, there]
          exact .refl _
      | some insn =>
          rw [step_world there]
          exact Execution.execute_advances insn (fun _ _ _ => id) activation world

end Machine

end StackCoroutine
