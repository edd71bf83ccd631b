import StackCoroutine.Proofs.Object.Changes
import StackCoroutine.Proofs.Reference.Actions

/-!
Actions of the machine and its methods change objects only into what they can become. Whether an
action succeeds does not matter: the heap it leaves follows the one it has found.
-/

namespace StackCoroutine

namespace Exec

variable {α β : Type} {constructs : Prop}

/-- Whatever the action comes to, the heap it leaves follows the one it has found. -/
def Advances (constructs : Prop) (action : Exec α) : Prop :=
  ∀ world : World, world.heap.Follows constructs (action.run world).2.heap

namespace Advances

theorem pure (value : α) : Advances constructs (Pure.pure value : Exec α) :=
  fun world => .refl world.heap

theorem fail (cause : MachineError) : Advances constructs (Exec.fail cause : Exec α) :=
  fun world => .refl world.heap

theorem bind {action : Exec α} {next : α → Exec β} (first : Advances constructs action)
    (later : ∀ value, Advances constructs (next value)) : Advances constructs (action >>= next) := by
  intro world
  have step : (action >>= next).run world =
      ExceptT.bindCont next (action.run world).1 (action.run world).2 := rfl
  have before := first world
  rw [step]
  generalize (action.run world).2 = middle at before ⊢
  rcases (action.run world).1 with cause | value
  · exact before
  · exact before.trans (later value middle)

theorem ofMachine (result : Except MachineError α) : Advances constructs (Exec.ofMachine result) := by
  cases result with
  | ok value => exact pure value
  | error cause => exact fail cause

theorem ofType (result : Except TypeFault α) : Advances constructs (Exec.ofType result) :=
  ofMachine _

theorem ofProtocol (result : Except ProtocolError α) : Advances constructs (Exec.ofProtocol result) :=
  ofMachine _

theorem reading (read : Heap → Except TypeFault α) : Advances constructs (Exec.reading read) :=
  fun world => ofType (read world.heap) world

theorem changing {change : Heap → α × Heap}
    (follows : ∀ heap : Heap, heap.Follows constructs (change heap).2) :
    Advances constructs (Exec.changing change) := fun world => follows world.heap

theorem alloc (content : HeapObject) :
    Advances constructs (Exec.changing fun heap => heap.alloc content) :=
  changing fun heap => .alloc heap content

theorem newText (content : String) :
    Advances constructs (Exec.changing fun heap => heap.newText content) :=
  changing fun heap => .alloc heap (.text content)

theorem update (object : ObjectRef) {change : HeapObject → HeapObject}
    (becomes : ∀ held : HeapObject, held.Becomes constructs (change held)) :
    Advances constructs (Exec.changeHeap fun heap => heap.update object change) :=
  fun _ => .update fun held _ => becomes held

theorem setField (object : ObjectRef) (name : String) (value : Value) :
    Advances constructs (Exec.changeHeap fun heap => heap.setField object name value) :=
  update object fun held => by
    cases held with
    | «instance» className fields => exact ⟨fields, rfl⟩
    | _ => exact .refl _

theorem setElement (array : ObjectRef) (index : Nat) (value : Value) :
    Advances constructs (Exec.changeHeap fun heap => heap.setElement array index value) :=
  update array fun held => by
    cases held with
    | array element values => exact ⟨values, rfl⟩
    | _ => exact .refl _

/-- An object is replaced by one that any object can become. -/
theorem replace (object : ObjectRef) {content : HeapObject}
    (becomes : ∀ held : HeapObject, held.Becomes constructs content) :
    Advances constructs (do
      let heap ← Exec.reading fun heap => heap.replace object content
      Exec.changeHeap fun _ => heap) := by
  intro world
  cases found : world.heap.get object with
  | ok held =>
      have ran : ((do
          let heap ← Exec.reading fun heap => heap.replace object content
          Exec.changeHeap fun _ => heap : Exec Unit).run world).2.heap =
            world.heap.update object fun _ => content := by
        simp [run_reading_bind, Heap.replace, found, Exec.changeHeap]
        rfl
      rw [ran]
      exact .update fun held _ => becomes held
  | error fault =>
      have ran : ((do
          let heap ← Exec.reading fun heap => heap.replace object content
          Exec.changeHeap fun _ => heap : Exec Unit).run world).2.heap = world.heap := by
        simp [run_reading_bind, Heap.replace, found]
      rw [ran]
      exact .refl _

/-- What is changed beside the heap does not matter. -/
theorem modify {change : World → World} (same : ∀ world, (change world).heap = world.heap) :
    Advances constructs (MonadState.modifyGet fun world => ((), change world) : Exec Unit) := by
  intro world
  show world.heap.Follows constructs (change world).heap
  rw [same]
  exact .refl _

theorem raise (className text : String) : Advances constructs (Exec.raise className text : Exec α) :=
  bind (newText text) fun _ => bind (alloc _) fun _ world => .refl world.heap

theorem nonNull (value : Value) (action : String) :
    Advances constructs (Exec.nonNull value action) := by
  refine bind (ofType _) fun found => ?_
  cases found with
  | none => exact raise _ _
  | some object => exact pure object

theorem context : Advances constructs Exec.context := by
  intro world
  obtain ⟨heap, statics, monitors, output, _ | current⟩ := world <;> exact .refl heap

theorem setContext (context : Context Value) : Advances constructs (Exec.setContext context) :=
  modify fun _ => rfl

end Advances

end Exec

namespace Native

open Exec

variable {constructs : Prop}

theorem argument_advances (native : Native) (arguments : List Value) (index : Nat) :
    Advances constructs (native.argument arguments index) := by
  unfold argument
  split
  · exact .pure _
  · exact .fail _

theorem expectContext_advances (value : Value) : Advances constructs (expectContext value) := by
  cases value <;> first | exact .pure _ | exact .fail _

theorem loadNextFrame_advances : Advances constructs loadNextFrame :=
  .bind .context fun _ => .bind (.ofProtocol _) fun _ => .bind (.setContext _) fun _ =>
    .bind (.alloc _) fun _ => .pure _

/-- Here an object becomes a saved frame. -/
theorem initSavedFrame_advances (constructing : constructs) (native : Native)
    (arguments : List Value) : Advances constructs (native.initSavedFrame arguments) := by
  refine .bind (argument_advances _ _ _) fun _ => .bind (.nonNull _ _) fun target => ?_
  refine .bind (argument_advances _ _ _) fun _ => .bind (.ofType _) fun name => ?_
  have rest : ∀ className, Advances constructs (do
      let lockState ← native.argument arguments 5
      let methodId ← ofType (← native.argument arguments 2).asInt
      let point ← ofType (← native.argument arguments 3).asInt
      let data ← native.argument arguments 4
      let frame := .savedFrame ⟨className, methodId, point, data, present lockState⟩ none
      let heap ← reading fun heap => heap.replace target frame
      changeHeap fun _ => heap) := by
    intro className
    refine .bind (argument_advances _ _ _) fun lockState => ?_
    refine .bind (argument_advances _ _ _) fun _ => .bind (.ofType _) fun methodId => ?_
    refine .bind (argument_advances _ _ _) fun _ => .bind (.ofType _) fun point => ?_
    refine .bind (argument_advances _ _ _) fun data => ?_
    exact .replace target fun _ => Or.inl constructing
  cases name with
  | some object => exact .bind (.reading _) rest
  | none => exact .bind (.raise _ _) rest

theorem initThrowable_advances (native : Native) (arguments : List Value) :
    Advances constructs (native.initThrowable arguments) := by
  refine .bind (argument_advances _ _ _) fun _ => .bind (.nonNull _ _) fun target => ?_
  split
  · refine .bind (argument_advances _ _ _) fun message => .bind (.reading _) fun content => ?_
    cases content <;> first | exact .setField _ _ _ | exact .fail _
  · refine .bind (.pure _) fun message => .bind (.reading _) fun content => ?_
    cases content <;> first | exact .setField _ _ _ | exact .fail _

theorem releaseLock_advances (native : Native) (arguments : List Value) :
    Advances constructs (native.releaseLock arguments) := by
  refine .bind (argument_advances _ _ _) fun _ => .bind (.nonNull _ _) fun target => ?_
  refine .bind (argument_advances _ _ _) fun monitor => .bind (.reading _) fun state => ?_
  split
  · exact .update target fun _ => trivial
  · exact .raise _ _
  · exact .fail _

theorem equalTexts_advances (native : Native) (arguments : List Value) :
    Advances constructs (native.equalTexts arguments) := by
  refine .bind (argument_advances _ _ _) fun _ => .bind (.nonNull _ _) fun target => ?_
  refine .bind (argument_advances _ _ _) fun value => ?_
  split
  · refine .bind (.reading _) fun content => ?_
    split
    · exact .bind (.reading _) fun _ => .pure _
    · exact .pure _
  · exact .pure _

/-- The methods of the machine; only the constructor of saved frames makes one of another object. -/
theorem call_advances (native : Native) (constructing : native = .savedFrameInit → constructs)
    (arguments : List Value) : Advances constructs (native.call arguments) := by
  have onContext : ∀ {next : Unit → Exec (Option Value)}, Advances constructs (next ()) →
      Advances constructs (native.argument arguments 0 >>= fun value =>
        expectContext value >>= next) :=
    fun later => .bind (argument_advances _ _ _) fun _ => .bind (expectContext_advances _) fun _ => later
  have onObject : ∀ {next : ObjectRef → Exec (Option Value)} (index : Nat) (action : String),
      (∀ object, Advances constructs (next object)) →
      Advances constructs (native.argument arguments index >>= fun value =>
        nonNull value action >>= next) :=
    fun _ _ later => .bind (argument_advances _ _ _) fun _ => .bind (.nonNull _ _) later
  cases native <;> unfold call
  case suspend => exact onContext (.raise _ _)
  case getMode => exact onContext (.bind .context fun _ => .pure _)
  case setMode =>
    refine onContext (.bind (argument_advances _ _ _) fun _ => .bind (.ofType _) fun _ => ?_)
    exact .bind .context fun _ => .bind (.ofProtocol _) fun _ => .bind (.setContext _) fun _ => .pure _
  case loadNext => exact onContext (.bind loadNextFrame_advances fun _ => .pure _)
  case unloadCurrent =>
    refine onContext (.bind .context fun _ => .bind (.ofProtocol _) fun _ => ?_)
    exact .bind (.setContext _) fun _ => .pure _
  case unloadToBefore =>
    refine onContext (onObject 1 _ fun object => .bind (.reading _) fun position => ?_)
    exact .bind .context fun _ => .bind (.ofProtocol _) fun _ => .bind (.setContext _) fun _ => .pure _
  case pushNew =>
    refine onContext (onObject 1 _ fun object => .bind (.reading _) fun frame => ?_)
    exact .bind .context fun _ => .bind (.setContext _) fun _ => .pure _
  case getPayload => exact onContext (.bind .context fun _ => .pure _)
  case setPayload =>
    refine onContext (.bind (argument_advances _ _ _) fun value => .bind .context fun _ => ?_)
    exact .bind (.setContext _) fun _ => .pure _
  case getArgumentCount =>
    exact onContext (.bind .context fun _ => .bind (.ofProtocol _) fun _ => .pure _)
  case getArgument =>
    refine onContext (.bind (argument_advances _ _ _) fun _ => .bind (.ofType _) fun index => ?_)
    have fetched : Advances constructs (do
        return some (← ofProtocol ((← context).argument index.toInt.toNat)) : Exec (Option Value)) :=
      .bind .context fun _ => .bind (.ofProtocol _) fun _ => .pure _
    split
    · exact .bind (.fail _) fun _ => fetched
    · exact fetched
  case savedFrameInit =>
    exact .bind (initSavedFrame_advances (constructing rfl) _ _) fun _ => .pure _
  case getPoint => exact onObject 0 _ fun object => .bind (.reading _) fun _ => .pure _
  case getData => exact onObject 0 _ fun object => .bind (.reading _) fun _ => .pure _
  case getLockState => exact onObject 0 _ fun object => .bind (.reading _) fun _ => .pure _
  case lockStateInit =>
    refine onObject 0 _ fun object => ?_
    rw [← bind_assoc]
    exact .bind (.replace object fun _ => trivial) fun _ => .pure _
  case lockStateEnter =>
    refine onObject 0 _ fun object => .bind (argument_advances _ _ _) fun monitor => ?_
    refine .bind (.reading _) fun state => ?_
    exact .bind (.update object fun _ => trivial) fun _ => .pure _
  case lockStateExit => exact .bind (releaseLock_advances _ _) fun _ => .pure _
  case lockStateToArray =>
    refine onObject 0 _ fun object => .bind (.reading _) fun state => ?_
    exact .bind (.alloc _) fun _ => .pure _
  case printLine =>
    refine .bind (argument_advances _ _ _) fun _ => .bind (.reading _) fun _ => ?_
    exact .bind (.modify fun _ => rfl) fun _ => .pure _
  case objectInit => exact .pure _
  case throwableInit | throwableInitMessage =>
    exact .bind (initThrowable_advances _ _) fun _ => .pure _
  case getMessage => exact onObject 0 _ fun object => .bind (.reading _) fun _ => .pure _
  case valueOf kind =>
    refine .bind (argument_advances _ _ _) fun _ => .bind (.reading _) fun text => ?_
    exact .bind (.newText text) fun _ => .pure _
  case concat =>
    refine onObject 0 _ fun first => onObject 1 _ fun second => ?_
    refine .bind (.reading _) fun front => .bind (.reading _) fun back => ?_
    exact .bind (.newText _) fun _ => .pure _
  case length => exact onObject 0 _ fun object => .bind (.reading _) fun _ => .pure _
  case textEquals => exact .bind (equalTexts_advances _ _) fun _ => .pure _

end Native

end StackCoroutine
