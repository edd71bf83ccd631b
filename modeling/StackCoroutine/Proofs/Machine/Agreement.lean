import StackCoroutine.Proofs.Frame.Describing
import StackCoroutine.Proofs.Machine.Yields

/-!
The effect of an instruction in the frame analysis and in the machine, side by side. A transfer of
frames agrees with an action of an invocation if the frame it leaves describes what the action
leaves, whenever both succeed and the frame before described the invocation. Each pair of operations
that the two sides share has a rule, and so has each operation that only one of them has.
-/

namespace StackCoroutine

theorem Transfer.bind_inv {α β : Type} {transfer : Transfer α} {next : α → Transfer β}
    {frame after : Frame} {last : β}
    (executed : (transfer >>= next).run frame = .ok (last, after)) :
    ∃ value middle, transfer.run frame = .ok (value, middle) ∧
      (next value).run middle = .ok (last, after) := by
  obtain ⟨⟨value, middle⟩, first, rest⟩ := Outcome.bind_eq_ok.mp executed
  exact ⟨value, middle, first, rest⟩

theorem Transfer.readLocal_inv {index slot : Nat} {frame seen : Frame} {entry : FrameValue}
    (executed : (Transfer.readLocal index slot).run frame = .ok (entry, seen)) :
    frame.locals[slot]? = some entry ∧ seen = frame := by
  cases here : frame.locals[slot]? with
  | none => simp [readLocal, StateT.run, here] at executed
  | some found =>
      simp only [readLocal, StateT.run, here, Except.ok.injEq, Prod.mk.injEq] at executed
      exact ⟨congrArg some executed.1, executed.2.symm⟩

/-- What a field read or a method of the machine has put on the stack is a value that the entry for
its declared type tells of; a field is not declared to be void. -/
def Insn.Fetches (tells : FrameValue → Value → Prop) (insn : Insn) (left : Activation) : Prop :=
  match insn with
  | .getField field | .getStatic field =>
      ∃ type kind, ValueType.parse field.descriptor = .ok type ∧ type.kind = some kind ∧
        ∀ value, left.stack.head? = some value → tells (.ofKind kind type.internalName) value
  | .invoke _ method =>
      ∀ type kind value, method.type = .ok type → type.result.kind = some kind →
        left.stack.head? = some value → tells (.ofKind kind type.result.internalName) value
  | _ => True

/-- Receiver and arguments of a call, as the first frame of the method called has them. -/
def Passed (tells : FrameValue → Value → Prop) (receiver : Bool) (types : List ValueType)
    (arguments : List Value) : Prop :=
  ∀ owner, List.Forall₂ tells
    ((if receiver then [.reference owner] else []) ++ types.filterMap FrameValue.ofType?) arguments

namespace Execution

/-- Where an instruction goes on, and that the frame after it describes what is there; the result of
a call is still to come. -/
def Goes (tells : FrameValue → Value → Prop) (classes : ClassTable) (site : Site)
    (result : Option Kind) (insn : Insn) (after : Frame) (flow : Flow) (left : Activation) : Prop :=
  siteOf left = site ∧ match flow with
    | .next => insn.isTerminator = false ∧ after.Describes tells left.locals left.stack
    | .jump place => after.Describes tells left.locals left.stack ∧
        ∃ label ∈ insn.targets, Analysis.resolve site.method.labels label = .ok place
    | .return value => value.map Value.kind = result
    | .call callee arguments => (∃ dispatch target, insn = .invoke dispatch target) ∧
        classes.Holds callee ∧
        ∃ type receiver, callee.method.type = .ok type ∧
          Passed tells receiver type.parameters arguments ∧
          ∀ value : Option Value, value.map Value.kind = type.result.kind →
            after.Describes tells left.locals (value.toList ++ left.stack)

/-- In every invocation that the frame describes, the action leaves what the frame after the
transfer describes, given that a value it fetches is as declared. -/
def Agrees (tells : FrameValue → Value → Prop) (classes : ClassTable) (site : Site)
    (result : Option Kind) (insn : Insn) (transfer : Transfer Unit) (action : Execution Flow) :
    Prop :=
  ∀ (frame after : Frame) (activation left : Activation) (flow : Flow) (world later : World),
    siteOf activation = site → frame.Describes tells activation.locals activation.stack →
    transfer.run frame = .ok ((), after) → Yields action activation world flow left later →
    (flow = .next → insn.Fetches tells left) → Goes tells classes site result insn after flow left

namespace Agrees

variable {α : Type} {tells : FrameValue → Value → Prop} {classes : ClassTable} {site : Site}
  {result : Option Kind} {insn : Insn} {index : Nat}

/-! ### Operations of the machine alone -/

/-- An action on the world, and what follows for the results it can have. -/
theorem skip {transfer : Transfer Unit} {action : Exec α} {next : α → Execution Flow}
    (given : α → Prop)
    (known : ∀ {world value after}, Exec.Gives action world value after → given value)
    (later : ∀ value, given value → Agrees tells classes site result insn transfer (next value)) :
    Agrees tells classes site result insn transfer (liftM action >>= next) := by
  intro frame after activation left flow world last same described executed yields fetches
  obtain ⟨value, middle, between, first, rest⟩ := yields.bind_inv
  obtain ⟨rfl, gives⟩ := first.lift_inv
  exact later value (known gives) _ _ _ _ _ _ _ same described executed rest fetches

/-- An action on the world whose result does not matter. -/
theorem andThen {transfer : Transfer Unit} {action : Exec α} {next : α → Execution Flow}
    (later : ∀ value, Agrees tells classes site result insn transfer (next value)) :
    Agrees tells classes site result insn transfer (liftM action >>= next) :=
  skip (fun _ => True) (fun _ => trivial) fun value _ => later value

theorem ofType {transfer : Transfer Unit} {outcome : Except TypeFault α} {next : α → Execution Flow}
    (later : ∀ value, outcome = .ok value →
      Agrees tells classes site result insn transfer (next value)) :
    Agrees tells classes site result insn transfer (liftM (Exec.ofType outcome) >>= next) :=
  skip _ Exec.Gives.ofType_inv later

theorem raise {transfer : Transfer Unit} {className text : String} {next : α → Execution Flow} :
    Agrees tells classes site result insn transfer
      (liftM (Exec.raise className text : Exec α) >>= next) :=
  skip (fun _ => False) Exec.Gives.raise_never fun _ impossible => impossible.elim

theorem fail {transfer : Transfer Unit} {cause : MachineError} {next : α → Execution Flow} :
    Agrees tells classes site result insn transfer
      (liftM (Exec.fail cause : Exec α) >>= next) :=
  skip (fun _ => False) Exec.Gives.fail_never fun _ impossible => impossible.elim

theorem failLast {transfer : Transfer Unit} {cause : MachineError} :
    Agrees tells classes site result insn transfer (liftM (Exec.fail cause : Exec Flow)) :=
  fun _ _ _ _ _ _ _ _ _ _ yields => yields.lift_inv.2.fail_never.elim

theorem seeWorld {transfer : Transfer Unit} {next : World → Execution Flow}
    (later : ∀ world, Agrees tells classes site result insn transfer (next world)) :
    Agrees tells classes site result insn transfer (getThe World >>= next) :=
  fun _ _ _ _ _ world _ same described executed yields =>
    later world _ _ _ _ _ _ _ same described executed yields

theorem changeWorld {transfer : Transfer Unit} {change : World → World}
    {next : PUnit → Execution Flow}
    (later : Agrees tells classes site result insn transfer (next ())) :
    Agrees tells classes site result insn transfer (modifyThe World change >>= next) :=
  fun _ _ _ _ _ world _ same described executed yields =>
    later _ _ _ _ _ (change world) _ same described executed yields

/-! ### Operations of the analysis alone -/

theorem lift {outcome : Except AnalyzeError α} {goes : α → Transfer Unit} {action : Execution Flow}
    (later : ∀ value, outcome = .ok value →
      Agrees tells classes site result insn (goes value) action) :
    Agrees tells classes site result insn (Transfer.lift outcome >>= goes) action := by
  intro frame after activation left flow world last same described executed
  cases outcome with
  | error cause => cases executed
  | ok value => exact later value rfl _ _ _ _ _ _ _ same described executed

theorem descriptor {outcome : Except DescriptorError α} {goes : α → Transfer Unit}
    {action : Execution Flow} (later : ∀ value, outcome = .ok value →
      Agrees tells classes site result insn (goes value) action) :
    Agrees tells classes site result insn (Transfer.lift (ofDescriptor outcome) >>= goes) action :=
  lift fun value good => later value (Outcome.mapError_eq_ok.mp good)

theorem refuse {cause : AnalyzeError} {goes : α → Transfer Unit} {action : Execution Flow} :
    Agrees tells classes site result insn (Transfer.fail cause >>= goes) action :=
  fun _ _ _ _ _ _ _ _ _ executed => by cases executed

theorem refuseLast {cause : AnalyzeError} {action : Execution Flow} :
    Agrees tells classes site result insn (Transfer.fail cause) action :=
  fun _ _ _ _ _ _ _ _ _ executed => by cases executed

theorem numeric {kind : Kind} {goes : Unit → Transfer Unit} {action : Execution Flow}
    (later : kind ≠ .ref → Agrees tells classes site result insn (goes ()) action) :
    Agrees tells classes site result insn (Transfer.numeric index kind >>= goes) action := by
  unfold Transfer.numeric
  split
  · exact refuse
  · rename_i proper
    exact later proper

theorem operandsFor {kind : Kind} {op : BinaryOp} {goes : Unit → Transfer Unit}
    {action : Execution Flow}
    (later : kind ≠ .ref → Agrees tells classes site result insn (goes ()) action) :
    Agrees tells classes site result insn (Transfer.operandsFor index kind op >>= goes) action := by
  rw [Transfer.operandsFor_eq]
  split
  · rename_i computes
    exact later fun reference => by simp [reference, Signature.computes] at computes
  · exact refuse

/-! ### Operations of both -/

theorem pop {goes : FrameValue → Transfer Unit} {next : Value → Execution Flow}
    (later : ∀ entry value, tells entry value →
      Agrees tells classes site result insn (goes entry) (next value)) :
    Agrees tells classes site result insn (Transfer.pop index >>= goes)
      (Execution.pop >>= next) := by
  intro frame after activation left flow world last same described executed yields
  obtain ⟨locals, stack⟩ := frame
  obtain ⟨method, place, slots, values⟩ := activation
  obtain ⟨inSlots, onStack⟩ := described
  cases onStack with
  | nil => cases executed
  | @cons entry value entries others told below =>
      exact later entry value told ⟨locals, entries⟩ after ⟨method, place, slots, others⟩ left flow
        world last same ⟨inSlots, below⟩ executed yields

theorem popKind {kind : Kind} {goes : FrameValue → Transfer Unit} {next : Value → Execution Flow}
    (later : ∀ entry value, entry.kind = some kind → tells entry value →
      Agrees tells classes site result insn (goes entry) (next value)) :
    Agrees tells classes site result insn (Transfer.popKind index kind >>= goes)
      (Execution.pop >>= next) := by
  unfold Transfer.popKind
  rw [bind_assoc]
  refine pop fun entry value told => ?_
  split
  · rename_i fits
    exact later entry value (by simpa [FrameValue.hasKind] using fits) told
  · exact refuse

/-- Both sides look at the category of the operand. -/
theorem popKinds {kind : Kind} {goes : FrameValue → Transfer Unit} {next : Value → Execution Flow}
    (later : ∀ entry value, entry.kind = some kind → value.kind = kind → tells entry value →
      Agrees tells classes site result insn (goes entry) (next value)) :
    Agrees tells classes site result insn (Transfer.popKind index kind >>= goes)
      (Execution.popKind kind >>= next) := by
  unfold Execution.popKind
  rw [bind_assoc]
  refine popKind fun entry value fits told => ofType fun same expected => ?_
  unfold Value.expectKind at expected
  split at expected
  · rename_i has
    cases expected
    exact later entry value fits has told
  · cases expected

theorem popInt {goes : FrameValue → Transfer Unit} {next : Int32 → Execution Flow}
    (later : ∀ entry value, Agrees tells classes site result insn (goes entry) (next value)) :
    Agrees tells classes site result insn (Transfer.popKind index .int >>= goes)
      (Execution.popInt >>= next) := by
  unfold Execution.popInt
  rw [bind_assoc]
  exact popKind fun entry value _ _ => andThen fun _ => later entry _

theorem popObject {purpose : String} {goes : FrameValue → Transfer Unit}
    {next : ObjectRef → Execution Flow}
    (later : ∀ entry value, Agrees tells classes site result insn (goes entry) (next value)) :
    Agrees tells classes site result insn (Transfer.popKind index .ref >>= goes)
      (Execution.popObject purpose >>= next) := by
  unfold Execution.popObject
  rw [bind_assoc]
  exact popKind fun entry value _ _ => andThen fun _ => later entry _

theorem popMonitor {purpose : String} {goes : FrameValue → Transfer Unit}
    {next : Monitor → Execution Flow}
    (later : ∀ entry value, Agrees tells classes site result insn (goes entry) (next value)) :
    Agrees tells classes site result insn (Transfer.popKind index .ref >>= goes)
      (Execution.popMonitor purpose >>= next) := by
  unfold Execution.popMonitor
  rw [bind_assoc]
  refine popKind fun entry value _ _ => ?_
  dsimp only
  split
  · rw [bind_assoc]
    exact raise
  · cases Monitor.ofValue? value with
    | some monitor => exact later entry monitor
    | none => exact fail

theorem push {entry : FrameValue} {value : Value} {goes : Unit → Transfer Unit}
    {next : Unit → Execution Flow} (told : tells entry value)
    (later : Agrees tells classes site result insn (goes ()) (next ())) :
    Agrees tells classes site result insn (Transfer.push entry >>= goes)
      (Execution.push value >>= next) :=
  fun frame after activation left flow world last same described executed yields =>
    later { frame with stack := entry :: frame.stack } after
      { activation with stack := value :: activation.stack } left flow world last same
      ⟨described.locals, .cons told described.stack⟩ executed yields

/-- The value that an instruction leaves on the stack in the end. -/
theorem pushLast {entry : FrameValue} {value : Value} {next : Unit → Execution Flow}
    (told : tells entry value)
    (later : Agrees tells classes site result insn (Pure.pure ()) (next ())) :
    Agrees tells classes site result insn (Transfer.push entry)
      (Execution.push value >>= next) := by
  rw [← bind_pure (Transfer.push entry)]
  exact push told later

/-- A value that the machine fetches from elsewhere. -/
theorem fetched {type : ValueType} {value : Value}
    (continues : insn.isTerminator = false)
    (told : ∀ left : Activation, left.stack.head? = some value → insn.Fetches tells left →
      ∃ kind, type.kind = some kind ∧ tells (.ofKind kind type.internalName) value) :
    Agrees tells classes site result insn (Transfer.pushType type)
      (Execution.push value >>= fun _ => Pure.pure .next) := by
  intro frame after activation left flow world last same described executed yields fetches
  cases yields
  obtain ⟨kind, has, tells⟩ := told _ rfl (fetches rfl)
  simp only [Transfer.pushType, FrameValue.ofType?, has, Option.map_some] at executed
  cases executed
  exact ⟨same, continues, described.locals, .cons tells described.stack⟩

theorem pure {flow : Flow}
    (goes : ∀ (frame : Frame) (activation : Activation), siteOf activation = site →
      frame.Describes tells activation.locals activation.stack →
      Goes tells classes site result insn frame flow activation) :
    Agrees tells classes site result insn (Pure.pure ()) (Pure.pure flow) := by
  intro frame after activation left flow world last same described executed yields _
  cases executed
  cases yields
  exact goes frame activation same described

theorem next (continues : insn.isTerminator = false) :
    Agrees tells classes site result insn (Pure.pure ()) (Pure.pure .next) :=
  pure fun _ _ same described => And.intro same ⟨continues, described⟩

theorem jumpTo {label : Label} (target : label ∈ insn.targets) :
    Agrees tells classes site result insn (Pure.pure ()) (Execution.jumpTo label) := by
  intro frame after activation left flow world last same described executed yields _
  cases executed
  unfold Execution.jumpTo at yields
  obtain ⟨seen, middle, between, first, rest⟩ := yields.bind_inv
  cases first
  obtain ⟨place, moved, met, first, jumped⟩ := Yields.bind_inv rest
  obtain ⟨rfl, found⟩ := first.lift_inv
  cases jumped
  have resolved := Outcome.mapError_eq_ok.mp found.ofMachine_inv
  refine ⟨same, described, label, target, ?_⟩
  rw [← same]
  exact resolved

theorem branchIf {label : Label} {holds : Bool} (continues : insn.isTerminator = false)
    (target : label ∈ insn.targets) :
    Agrees tells classes site result insn (Pure.pure ()) (Execution.branchIf holds label) := by
  cases holds with
  | false => exact next continues
  | true => exact jumpTo target

theorem popType {type : ValueType} {goes : Unit → Transfer Unit} {next : Value → Execution Flow}
    (later : ∀ value, Agrees tells classes site result insn (goes ()) (next value)) :
    Agrees tells classes site result insn (Transfer.popType index type >>= goes)
      (Execution.pop >>= next) := by
  unfold Transfer.popType
  split
  · rw [bind_assoc]
    exact popKind fun _ value _ _ => later value
  · exact refuse

theorem readLocal {slot : UInt16} {goes : FrameValue → Transfer Unit}
    {next : Value → Execution Flow}
    (later : ∀ entry value, (entry ≠ .uninitialized → tells entry value) →
      Agrees tells classes site result insn (goes entry) (next value)) :
    Agrees tells classes site result insn (Transfer.readLocal index slot.toNat >>= goes)
      (Execution.readLocal slot >>= next) := by
  intro frame after activation left flow world last same described executed yields fetches
  obtain ⟨entry, seen, read, goesOn⟩ := Transfer.bind_inv executed
  obtain ⟨value, middle, between, first, rest⟩ := yields.bind_inv
  obtain ⟨held, rfl⟩ := first.readLocal_inv
  obtain ⟨here, rfl⟩ := Transfer.readLocal_inv read
  refine later entry value (fun initialized => ?_) _ _ _ _ _ _ _ same described goesOn rest fetches
  obtain ⟨there, stands, told⟩ := described.locals _ entry here initialized
  cases held.symm.trans stands
  exact told

theorem writeLocal {slot : UInt16} {entry : FrameValue} {value : Value}
    (continues : insn.isTerminator = false) (told : tells entry value) :
    Agrees tells classes site result insn (Transfer.writeLocal index slot.toNat entry)
      (Execution.writeLocal slot value >>= fun _ => Pure.pure .next) := by
  intro frame after activation left flow world last same described executed yields _
  obtain ⟨_, middle, between, first, rest⟩ := yields.bind_inv
  obtain ⟨inside, rfl⟩ := first.writeLocal_inv
  cases rest
  unfold Transfer.writeLocal at executed
  cases written : frame.setLocal index slot.toNat entry with
  | error cause => simp [StateT.run, written, Except.map] at executed
  | ok changed =>
      simp only [StateT.run, written, Except.map, Except.ok.injEq, Prod.mk.injEq, true_and]
        at executed
      subst executed
      refine And.intro ?_ ⟨continues, described.setLocal told inside written⟩
      rw [← same]
      simp [siteOf]

/-- A slot keeps its entry when a number takes the place of another. -/
theorem increment {slot : UInt16} {amount : Int32} (telling : Telling tells)
    (continues : insn.isTerminator = false) :
    Agrees tells classes site result insn
      (Transfer.readLocal index slot.toNat >>= fun entry =>
        if entry ≠ .int then Transfer.fail (.typeMismatch index (.kind .int) (.value entry))
        else Pure.pure ())
      (Execution.readLocal slot >>= fun value =>
        liftM (Exec.ofType value.asInt) >>= fun number =>
        Execution.writeLocal slot (.int (number + amount)) >>= fun _ => Pure.pure .next) := by
  intro frame after activation left flow world last same described executed yields _
  obtain ⟨entry, seen, read, goesOn⟩ := Transfer.bind_inv executed
  obtain ⟨value, _, _, first, rest⟩ := yields.bind_inv
  obtain ⟨held, rfl⟩ := first.readLocal_inv
  obtain ⟨number, _, _, converted, writes⟩ := rest.bind_inv
  obtain ⟨rfl, _⟩ := converted.lift_inv
  obtain ⟨_, _, _, wrote, goesOn'⟩ := writes.bind_inv
  obtain ⟨inside, rfl⟩ := wrote.writeLocal_inv
  cases goesOn'
  obtain ⟨here, rfl⟩ := Transfer.readLocal_inv read
  split at goesOn
  · cases goesOn
  · rename_i isInt
    cases goesOn
    obtain rfl : entry = .int := by simpa using isInt
    have told : tells .int (.int (number + amount)) := telling.ofKind rfl nofun
    refine And.intro ?_ ⟨continues, described.refill here told⟩
    rw [← same]
    simp [siteOf]

/-! ### Calls -/

section popped

variable {frame after : Frame} {values : List Value}

theorem popKind_told {kind : Kind} {entry : FrameValue}
    (told : List.Forall₂ tells frame.stack values)
    (executed : (Transfer.popKind index kind).run frame = .ok (entry, after)) :
    ∃ value rest, values = value :: rest ∧ entry.kind = some kind ∧ tells entry value ∧
      after.locals = frame.locals ∧ List.Forall₂ tells after.stack rest := by
  obtain ⟨locals, stack⟩ := frame
  unfold Transfer.popKind at executed
  cases told with
  | nil => cases executed
  | @cons first value entries others here below =>
      obtain ⟨popped, left, got, checked⟩ := Transfer.bind_inv executed
      cases got
      dsimp only at checked
      split at checked
      · rename_i fits
        cases checked
        exact ⟨value, others, rfl, by simpa [FrameValue.hasKind] using fits, here, rfl, below⟩
      · cases checked

theorem popType_told (telling : Telling tells) {type : ValueType}
    (told : List.Forall₂ tells frame.stack values)
    (executed : (Transfer.popType index type).run frame = .ok ((), after)) :
    ∃ value rest entry, values = value :: rest ∧ FrameValue.ofType? type = some entry ∧
      tells entry value ∧ after.locals = frame.locals ∧ List.Forall₂ tells after.stack rest := by
  unfold Transfer.popType at executed
  split at executed
  · rename_i kind declared
    obtain ⟨entry, left, popped, same⟩ := Transfer.bind_inv executed
    cases same
    obtain ⟨value, rest, whole, fits, here, kept, below⟩ := popKind_told told popped
    exact ⟨value, rest, _, whole, by rw [FrameValue.ofType?, declared]; rfl,
      telling.declared here fits, kept, below⟩
  · cases executed

/-- The arguments of a call come off the stack one by one, the last one first. -/
theorem popArguments_told (telling : Telling tells) {types : List ValueType}
    (told : List.Forall₂ tells frame.stack values)
    (executed : (Transfer.popArguments index types).run frame = .ok ((), after)) :
    ∃ taken rest, values = taken.reverse ++ rest ∧ taken.length = types.length ∧
      List.Forall₂ tells (types.filterMap FrameValue.ofType?) taken ∧
      after.locals = frame.locals ∧ List.Forall₂ tells after.stack rest := by
  induction types using List.reverseRecOn generalizing frame values with
  | nil =>
      cases executed
      exact ⟨[], values, rfl, rfl, .nil, rfl, told⟩
  | append_singleton types last ih =>
      have unfolded : Transfer.popArguments index (types ++ [last]) =
          Transfer.popType index last >>= fun _ => Transfer.popArguments index types := by
        simp [Transfer.popArguments]
      rw [unfolded] at executed
      obtain ⟨_, middle, popped, executed⟩ := Transfer.bind_inv executed
      obtain ⟨value, rest, entry, rfl, declared, here, kept, below⟩ :=
        popType_told telling told popped
      obtain ⟨taken, rest, rfl, count, all, kept', below⟩ := ih below executed
      refine ⟨taken ++ [value], rest, by simp, by simp [count], ?_, kept'.trans kept, below⟩
      rw [List.filterMap_append, List.filterMap_cons_some declared]
      exact List.rel_append all (.cons here .nil)

end popped

/-- Receiver and arguments of a call, which the machine takes from the stack at once. -/
theorem popCall (telling : Telling tells) {receiver : Bool} {types : List ValueType}
    {goes : Transfer Unit} {next : List Value → Execution Flow}
    (later : ∀ arguments, Passed tells receiver types arguments →
      Agrees tells classes site result insn goes (next arguments)) :
    Agrees tells classes site result insn
      (Transfer.popArguments index types >>= fun _ =>
        if receiver then Transfer.popKind index .ref >>= fun _ => goes else goes)
      (Execution.popMany (types.length + if receiver then 1 else 0) >>= next) := by
  intro frame after activation left flow world last same described executed yields fetches
  obtain ⟨arguments, middle, between, first, rest⟩ := yields.bind_inv
  obtain ⟨count, rfl⟩ := first.popMany_inv
  obtain ⟨_, low, popped, executed⟩ := Transfer.bind_inv executed
  -- The same operands, cut off in the two ways: `arguments` at once and `taken` one by one.
  obtain ⟨taken, below, whole, long, told, kept, under⟩ :=
    popArguments_told telling described.stack popped
  dsimp only at whole executed
  cases receiver with
  | false =>
      obtain ⟨front, back⟩ := List.append_inj whole (by simp [count, long])
      obtain rfl : arguments = taken := List.reverse_injective front
      subst back
      refine later arguments (fun _ => by simpa using told) low after middle left flow between last
        same ⟨?_, under⟩ executed rest fetches
      rw [kept]
      exact described.locals
  | true =>
      obtain ⟨entry, lower, popped, executed⟩ := Transfer.bind_inv executed
      obtain ⟨value, deeper, rfl, fits, here, kept', under⟩ := popKind_told under popped
      obtain ⟨front, back⟩ := List.append_inj
        (whole.trans (List.append_cons taken.reverse value deeper)) (by simp [count, long])
      obtain rfl : arguments = value :: taken := List.reverse_injective (by simpa using front)
      subst back
      refine later _ (fun owner => ?_) lower after middle left flow between last
        same ⟨?_, under⟩ executed rest fetches
      · exact .cons (telling.declared here fits) told
      · rw [kept', kept]
        exact described.locals

end Agrees

end Execution

end StackCoroutine
