import StackCoroutine.Machine.Step
import StackCoroutine.Proofs.Outcome

/-!
Structural errors: those that an execution of verified code never comes to. What the machine does to
its world, its own methods among it, ends in none of them, whatever the world holds.
-/

namespace StackCoroutine

/-- The fault is one of the code and not of the values it works on. -/
def TypeFault.isStructural : TypeFault → Bool
  | .fellOffEnd _ | .localOutOfRange _ | .tooFewLocals _ => true
  | _ => false

/-- The error is one of the code: an operand or a local slot that is not there, a label or a
descriptor that means nothing, or an execution past the end. -/
def MachineError.isStructural : MachineError → Bool
  | .stackUnderflow | .analyze _ | .descriptor _ => true
  | .type fault => fault.isStructural
  | _ => false

/-- The result is no structural fault. -/
def Harmless (result : Except TypeFault α) : Prop :=
  ∀ fault, result = .error fault → fault.isStructural = false

namespace Harmless

variable {α β : Type}

theorem ok (value : α) : Harmless (.ok value) := by
  intro fault failed
  cases failed

theorem error {fault : TypeFault} (mild : fault.isStructural = false) :
    Harmless (.error fault : Except TypeFault α) := by
  intro other failed
  cases failed
  exact mild

theorem bind {result : Except TypeFault α} {next : α → Except TypeFault β}
    (first : Harmless result) (later : ∀ value, Harmless (next value)) :
    Harmless (result >>= next) := by
  cases result with
  | error cause => exact error (first cause rfl)
  | ok value => exact later value

theorem map {result : Except TypeFault α} (first : Harmless result) (change : α → β) :
    Harmless (result.map change) := by
  cases result with
  | error cause => exact error (first cause rfl)
  | ok value => exact ok (change value)

theorem asInt (value : Value) : Harmless value.asInt := by
  cases value <;> first | exact ok _ | exact error rfl

theorem asObject (value : Value) : Harmless value.asObject := by
  cases value <;> first | exact ok _ | exact error rfl

theorem expectKind (value : Value) (kind : Kind) : Harmless (value.expectKind kind) := by
  unfold Value.expectKind
  split
  · exact ok value
  · exact error rfl

section heap

variable (heap : Heap) (object : ObjectRef)

theorem get : Harmless (heap.get object) := by
  unfold Heap.get
  split
  · exact ok _
  · exact error rfl

theorem replace (content : HeapObject) : Harmless (heap.replace object content) := by
  have found := get heap object
  unfold Heap.replace
  split
  · exact ok _
  · rename_i fault failed
    exact error (found fault failed)

theorem text : Harmless (heap.text object) :=
  (get heap object).bind fun content => by
    cases content <;> first | exact ok _ | exact error rfl

theorem array : Harmless (heap.array object) :=
  (get heap object).bind fun content => by
    cases content <;> first | exact ok _ | exact error rfl

theorem className : Harmless (heap.className object) :=
  (get heap object).bind fun content => ok content.className

theorem display (value : Value) : Harmless (heap.display value) := by
  cases value with
  | ref object => exact (get heap object).bind fun content => by cases content <;> exact ok _
  | _ => exact ok _

theorem messageOf : Harmless (heap.messageOf object) :=
  (get heap object).bind fun content => by cases content <;> exact ok _

theorem savedFrame : Harmless (heap.savedFrame object) :=
  (get heap object).bind fun content => by
    cases content <;> first | exact ok _ | exact error rfl

theorem framePosition : Harmless (heap.framePosition object) :=
  (get heap object).bind fun content => by
    rcases content with _ | _ | _ | ⟨frame, _ | position⟩ | _ <;>
      first | exact ok _ | exact error rfl

theorem lockState : Harmless (heap.lockState object) :=
  (get heap object).bind fun content => by
    cases content <;> first | exact ok _ | exact error rfl

end heap

theorem doubles (op : BinaryOp) (a b : Binary64) : Harmless (Arithmetic.doubles op a b) := by
  cases op <;> first | exact ok _ | exact error rfl

theorem binary? (kind : Kind) (op : BinaryOp) (a b : Value) :
    Harmless (Arithmetic.binary? kind op a b) := by
  unfold Arithmetic.binary?
  split
  · exact ok _
  · exact ok _
  · exact (doubles op _ _).map _
  · exact (doubles op _ _).map _
  · exact error rfl

theorem negate (value : Value) : Harmless (Arithmetic.negate value) := by
  cases value <;> first | exact ok _ | exact error rfl

theorem convert (value : Value) (target : Kind) : Harmless (Arithmetic.convert value target) := by
  cases value <;> cases target <;> first | exact ok _ | exact error rfl

theorem compare (a b : Value) : Harmless (Arithmetic.compare a b) := by
  unfold Arithmetic.compare
  split <;> first | exact ok _ | exact error rfl

end Harmless

namespace Exec

variable {α β : Type}

/-- Whatever the world holds, the action fails with no structural error, and a result it gives is
good. Exceptions may pass. -/
def Safe (good : α → Prop) (action : Exec α) : Prop :=
  ∀ world : World, match (action.run world).1 with
    | .ok value => good value
    | .error (.error cause) => cause.isStructural = false
    | .error (.thrown _) => True

namespace Safe

variable {good : α → Prop} {fine : β → Prop}

theorem pure {value : α} (holds : good value) : Safe good (Pure.pure value : Exec α) :=
  fun _ => holds

theorem fail {cause : MachineError} (mild : cause.isStructural = false) :
    Safe good (Exec.fail cause : Exec α) := fun _ => mild

theorem bind {action : Exec α} {next : α → Exec β} (first : Safe good action)
    (later : ∀ value, good value → Safe fine (next value)) : Safe fine (action >>= next) := by
  intro world
  have before := first world
  have step : (action >>= next).run world =
      ExceptT.bindCont next (action.run world).1 (action.run world).2 := rfl
  rw [step]
  generalize (action.run world).2 = left
  revert before
  rcases (action.run world).1 with (cause | exception) | value <;> intro before
  · exact before
  · trivial
  · exact later value before left

/-- An action whose result does not matter. -/
theorem andThen {action : Exec α} {next : α → Exec β} (first : Safe (fun _ => True) action)
    (later : ∀ value, Safe fine (next value)) : Safe fine (action >>= next) :=
  first.bind fun value _ => later value

theorem mono {action : Exec α} {better : α → Prop} (safe : Safe good action)
    (weaker : ∀ value, good value → better value) : Safe better action := by
  intro world
  have before := safe world
  split
  · rename_i value result
    simp only [result] at before
    exact weaker value before
  · rename_i cause result
    simpa only [result] using before
  · trivial

theorem ofMachine {result : Except MachineError α} (given : ∀ value, result = .ok value → good value)
    (mild : ∀ cause, result = .error cause → cause.isStructural = false) :
    Safe good (Exec.ofMachine result) := by
  cases result with
  | ok value => exact pure (given value rfl)
  | error cause => exact fail (mild cause rfl)

theorem ofType {result : Except TypeFault α} (harmless : Harmless result) :
    Safe (fun _ => True) (Exec.ofType result) := by
  cases result with
  | ok value => exact pure trivial
  | error cause => exact fail (harmless cause rfl)

theorem ofProtocol (result : Except ProtocolError α) :
    Safe (fun _ => True) (Exec.ofProtocol result) := by
  cases result with
  | ok value => exact pure trivial
  | error cause => exact fail rfl

theorem heap : Safe (fun _ => True) Exec.heap := fun _ => trivial

theorem reading {read : Heap → Except TypeFault α} (harmless : ∀ heap, Harmless (read heap)) :
    Safe (fun _ => True) (Exec.reading read) :=
  heap.andThen fun heap => ofType (harmless heap)

theorem changing (change : Heap → α × Heap) : Safe (fun _ => True) (Exec.changing change) :=
  fun _ => trivial

theorem modify (change : World → World) :
    Safe (fun _ => True) (MonadState.modifyGet fun world => ((), change world) : Exec Unit) :=
  fun _ => trivial

theorem changeHeap (change : Heap → Heap) : Safe (fun _ => True) (Exec.changeHeap change) :=
  modify _

theorem raise (className text : String) : Safe good (Exec.raise className text : Exec α) :=
  (changing _).andThen fun _ => (changing _).bind fun _ _ _ => trivial

theorem nonNull (value : Value) (action : String) :
    Safe (fun _ => True) (Exec.nonNull value action) :=
  (ofType (Harmless.asObject value)).andThen fun object => by
    cases object with
    | none => exact raise _ _
    | some object => exact pure trivial

theorem get : Safe (fun _ => True) (MonadState.get : Exec World) := fun _ => trivial

theorem context : Safe (fun _ => True) Exec.context :=
  get.andThen fun world => by
    cases world.context with
    | none => exact fail rfl
    | some context => exact pure trivial

theorem setContext (context : Context Value) : Safe (fun _ => True) (Exec.setContext context) :=
  modify _

end Safe

end Exec

namespace Native

open Exec

variable {α β : Type}

theorem argument_safe (native : Native) (arguments : List Value) (index : Nat) :
    Safe (fun _ => True) (native.argument arguments index) := by
  unfold argument
  split
  · exact Safe.pure trivial
  · exact Safe.fail rfl

theorem expectContext_safe (value : Value) : Safe (fun _ => True) (expectContext value) := by
  cases value <;> first | exact Safe.pure trivial | exact Safe.fail rfl

/-- The method gives a result. -/
def returns : Native → Bool
  | .getMode | .loadNext | .getPayload | .getArgumentCount | .getArgument | .getPoint | .getData
  | .getLockState | .lockStateToArray | .getMessage | .valueOf _ | .concat | .length
  | .textEquals => true
  | _ => false

/-- A method of the machine gives a result exactly if its descriptor says so. -/
theorem returns_result {method : MethodRef} {native : Native} {type : MethodType}
    (found : find? method = some native) (typed : method.type = .ok type) :
    type.result.kind.isSome = native.returns := by
  have table : ∀ binding ∈ bindings,
      (binding.1.type.toOption.map fun type => type.result.kind.isSome) = some binding.2.returns := by
    decide +kernel
  have bound := table (method, native) (Outcome.lookup_mem found)
  simpa [typed, Except.toOption] using bound

theorem loadNextFrame_safe : Safe (fun _ => True) loadNextFrame :=
  Safe.context.andThen fun _ => (Safe.ofProtocol _).andThen fun ⟨_, next⟩ =>
    (Safe.setContext next).andThen fun _ => (Safe.changing _).andThen fun _ => Safe.pure trivial

theorem initSavedFrame_safe (native : Native) (arguments : List Value) :
    Safe (fun _ => True) (native.initSavedFrame arguments) := by
  refine (argument_safe native arguments 0).andThen fun receiver => ?_
  refine (Safe.nonNull receiver _).andThen fun target => ?_
  refine (argument_safe native arguments 1).andThen fun name => ?_
  refine (Safe.ofType (Harmless.asObject name)).andThen fun object => ?_
  have rest : ∀ className, Safe (fun _ => True) (do
      let lockState ← native.argument arguments 5
      let methodId ← ofType (← native.argument arguments 2).asInt
      let point ← ofType (← native.argument arguments 3).asInt
      let data ← native.argument arguments 4
      let frame := .savedFrame ⟨className, methodId, point, data, present lockState⟩ none
      let heap ← reading fun heap => heap.replace target frame
      changeHeap fun _ => heap) := by
    intro className
    refine (argument_safe native arguments 5).andThen fun lockState => ?_
    refine (argument_safe native arguments 2).andThen fun methodId => ?_
    refine (Safe.ofType (Harmless.asInt methodId)).andThen fun methodId => ?_
    refine (argument_safe native arguments 3).andThen fun point => ?_
    refine (Safe.ofType (Harmless.asInt point)).andThen fun point => ?_
    refine (argument_safe native arguments 4).andThen fun data => ?_
    refine (Safe.reading fun heap => Harmless.replace heap target _).andThen fun heap => ?_
    exact Safe.changeHeap _
  split
  · rename_i name
    exact (Safe.reading fun heap => Harmless.text heap name).andThen rest
  · exact Safe.andThen (Safe.raise _ _) rest

theorem initThrowable_safe (native : Native) (arguments : List Value) :
    Safe (fun _ => True) (native.initThrowable arguments) := by
  refine (argument_safe native arguments 0).andThen fun receiver => ?_
  refine (Safe.nonNull receiver _).andThen fun target => ?_
  have there := Safe.reading fun heap => Harmless.get heap target
  split
  · refine (argument_safe _ arguments 1).andThen fun message => there.andThen fun content => ?_
    cases content <;> first | exact Safe.changeHeap _ | exact Safe.fail rfl
  · refine there.andThen fun content => ?_
    cases content <;> first | exact Safe.changeHeap _ | exact Safe.fail rfl

theorem releaseLock_safe (native : Native) (arguments : List Value) :
    Safe (fun _ => True) (native.releaseLock arguments) := by
  refine (argument_safe native arguments 0).andThen fun receiver => ?_
  refine (Safe.nonNull receiver _).andThen fun target => ?_
  refine (argument_safe native arguments 1).andThen fun monitor => ?_
  refine (Safe.reading fun heap => Harmless.lockState heap target).andThen fun state => ?_
  split
  · exact Safe.changeHeap _
  · exact Safe.raise _ _
  · exact Safe.fail rfl

theorem equalTexts_safe (native : Native) (arguments : List Value) :
    Safe (fun _ => True) (native.equalTexts arguments) := by
  refine (argument_safe native arguments 0).andThen fun receiver => ?_
  refine (Safe.nonNull receiver _).andThen fun target => ?_
  refine (argument_safe native arguments 1).andThen fun value => ?_
  split
  · rename_i other
    refine (Safe.reading fun heap => Harmless.get heap other).andThen fun content => ?_
    split
    · exact (Safe.reading fun heap => Harmless.text heap target).andThen fun _ => Safe.pure trivial
    · exact Safe.pure trivial
  · exact Safe.pure trivial

/-- A method of the machine gives a result if it is one that does, and fails with no structural
error. -/
theorem call_safe (native : Native) (arguments : List Value) :
    Safe (fun result => result.isSome = native.returns) (native.call arguments) := by
  have onContext : ∀ {next : Unit → Exec (Option Value)} {good : Option Value → Prop},
      Safe good (next ()) →
      Safe good (native.argument arguments 0 >>= fun value => expectContext value >>= next) :=
    fun later => (argument_safe native arguments 0).andThen fun value =>
      (expectContext_safe value).andThen fun _ => later
  have onObject : ∀ {next : ObjectRef → Exec (Option Value)} {good : Option Value → Prop}
      (action : String), (∀ object, Safe good (next object)) →
      Safe good (native.argument arguments 0 >>= fun value => nonNull value action >>= next) :=
    fun action later => (argument_safe native arguments 0).andThen fun value =>
      (Safe.nonNull value action).andThen fun object => later object
  cases native <;> unfold call
  case suspend => exact onContext (Safe.raise _ _)
  case getMode => exact onContext (Safe.context.andThen fun _ => Safe.pure rfl)
  case setMode =>
    refine onContext ((argument_safe _ arguments 1).andThen fun code => ?_)
    refine (Safe.ofType (Harmless.asInt code)).andThen fun code => Safe.context.andThen fun _ => ?_
    exact (Safe.ofProtocol _).andThen fun next => (Safe.setContext next).andThen fun _ =>
      Safe.pure rfl
  case loadNext => exact onContext (loadNextFrame_safe.andThen fun _ => Safe.pure rfl)
  case unloadCurrent =>
    exact onContext (Safe.context.andThen fun _ => (Safe.ofProtocol _).andThen fun ⟨_, next⟩ =>
      (Safe.setContext next).andThen fun _ => Safe.pure rfl)
  case unloadToBefore =>
    refine onContext ((argument_safe _ arguments 1).andThen fun state => ?_)
    refine (Safe.nonNull state _).andThen fun object => ?_
    refine (Safe.reading fun heap => Harmless.framePosition heap object).andThen fun position => ?_
    exact Safe.context.andThen fun _ => (Safe.ofProtocol _).andThen fun next =>
      (Safe.setContext next).andThen fun _ => Safe.pure rfl
  case pushNew =>
    refine onContext ((argument_safe _ arguments 1).andThen fun state => ?_)
    refine (Safe.nonNull state _).andThen fun object => ?_
    refine (Safe.reading fun heap => Harmless.savedFrame heap object).andThen fun frame => ?_
    exact Safe.context.andThen fun _ => (Safe.setContext _).andThen fun _ => Safe.pure rfl
  case getPayload => exact onContext (Safe.context.andThen fun _ => Safe.pure rfl)
  case setPayload =>
    exact onContext ((argument_safe _ arguments 1).andThen fun _ => Safe.context.andThen fun _ =>
      (Safe.setContext _).andThen fun _ => Safe.pure rfl)
  case getArgumentCount =>
    exact onContext (Safe.context.andThen fun _ => (Safe.ofProtocol _).andThen fun _ =>
      Safe.pure rfl)
  case getArgument =>
    refine onContext ((argument_safe _ arguments 1).andThen fun index => ?_)
    refine (Safe.ofType (Harmless.asInt index)).andThen fun index => ?_
    split
    · exact Safe.andThen (Safe.fail rfl) fun _ => Safe.context.andThen fun _ =>
        (Safe.ofProtocol _).andThen fun _ => Safe.pure rfl
    · exact Safe.context.andThen fun _ => (Safe.ofProtocol _).andThen fun _ => Safe.pure rfl
  case savedFrameInit =>
    exact (initSavedFrame_safe _ arguments).andThen fun _ => Safe.pure rfl
  case getPoint | getData | getLockState =>
    exact onObject _ fun object =>
      (Safe.reading fun heap => Harmless.savedFrame heap object).andThen fun _ => Safe.pure rfl
  case lockStateInit =>
    exact onObject _ fun object =>
      (Safe.reading fun heap => Harmless.replace heap object _).andThen fun _ =>
        (Safe.changeHeap _).andThen fun _ => Safe.pure rfl
  case lockStateEnter =>
    exact onObject _ fun object => (argument_safe _ arguments 1).andThen fun _ =>
      (Safe.reading fun heap => Harmless.lockState heap object).andThen fun _ =>
        (Safe.changeHeap _).andThen fun _ => Safe.pure rfl
  case lockStateExit => exact (releaseLock_safe _ arguments).andThen fun _ => Safe.pure rfl
  case lockStateToArray =>
    exact onObject _ fun object =>
      (Safe.reading fun heap => Harmless.lockState heap object).andThen fun _ =>
        (Safe.changing _).andThen fun _ => Safe.pure rfl
  case printLine =>
    refine (argument_safe _ arguments 0).andThen fun value => ?_
    exact (Safe.reading fun heap => Harmless.display heap value).andThen fun _ =>
      (Safe.modify _).andThen fun _ => Safe.pure rfl
  case objectInit => exact Safe.pure rfl
  case throwableInit | throwableInitMessage =>
    exact (initThrowable_safe _ arguments).andThen fun _ => Safe.pure rfl
  case getMessage =>
    exact onObject _ fun object =>
      (Safe.reading fun heap => Harmless.messageOf heap object).andThen fun _ => Safe.pure rfl
  case valueOf kind =>
    refine (argument_safe _ arguments 0).andThen fun value => ?_
    exact (Safe.reading fun heap => Harmless.display heap value).andThen fun _ =>
      (Safe.changing _).andThen fun _ => Safe.pure rfl
  case concat =>
    refine onObject _ fun first => (argument_safe _ arguments 1).andThen fun value => ?_
    refine (Safe.nonNull value _).andThen fun second => ?_
    refine (Safe.reading fun heap => Harmless.text heap first).andThen fun _ => ?_
    exact (Safe.reading fun heap => Harmless.text heap second).andThen fun _ =>
      (Safe.changing _).andThen fun _ => Safe.pure rfl
  case length =>
    exact onObject _ fun object =>
      (Safe.reading fun heap => Harmless.text heap object).andThen fun _ => Safe.pure rfl
  case textEquals => exact (equalTexts_safe _ arguments).andThen fun _ => Safe.pure rfl

end Native

end StackCoroutine
