import StackCoroutine.Proofs.Frame.Kinds
import StackCoroutine.Proofs.Machine.NativeFaults

/-!
An instruction executed where it fits the analysed frame. Only heights count: an invocation that has
at least the operands and the local slots of the frame before an instruction executes it with no
structural error, and has at least those of the frame after it where it goes on.
-/

namespace StackCoroutine

namespace ClassTable

/-- The method belongs to a loaded class. -/
def Holds (table : ClassTable) (method : PreparedMethod) : Prop :=
  ∃ entry ∈ table.loaded, method ∈ entry.2.methods

/-- The descriptors of all fields of the loaded classes have a meaning. -/
def FieldsParse (table : ClassTable) : Prop :=
  ∀ entry ∈ table.loaded, ∀ field ∈ entry.2.file.fields,
    ∃ type, ValueType.parse field.descriptor = .ok type

variable {table : ClassTable}

theorem find?_mem {name : String} {loaded : LoadedClass} (found : table.find? name = some loaded) :
    ∃ entry ∈ table.loaded, entry.2 = loaded :=
  ⟨(name, loaded), Outcome.lookup_mem found, rfl⟩

theorem resolve?_code {start name descriptor : String} {method : PreparedMethod}
    (found : table.resolve? start name descriptor = some (.code method)) :
    table.Holds method ∧ method.method.descriptor = descriptor := by
  obtain ⟨ancestor, _, chosen⟩ := List.exists_of_findSome?_eq_some found
  cases here : (table.find? ancestor).bind fun loaded => loaded.method? name descriptor with
  | none =>
      simp only [here] at chosen
      cases native : Native.find? ⟨ancestor, name, descriptor⟩ <;> simp [native] at chosen
  | some other =>
      simp only [here, Option.some.injEq, Target.code.injEq] at chosen
      subst other
      obtain ⟨loaded, known, declared⟩ := Option.bind_eq_some_iff.mp here
      obtain ⟨entry, member, rfl⟩ := find?_mem known
      have listed := List.mem_of_find?_eq_some declared
      have same := List.find?_some declared
      exact ⟨⟨entry, member, listed⟩, by simpa using (Bool.and_eq_true_iff.mp same).2⟩

theorem resolve?_native {start name descriptor : String} {native : Native}
    (found : table.resolve? start name descriptor = some (.native native)) :
    ∃ ancestor, Native.find? ⟨ancestor, name, descriptor⟩ = some native := by
  obtain ⟨ancestor, _, chosen⟩ := List.exists_of_findSome?_eq_some found
  cases here : (table.find? ancestor).bind fun loaded => loaded.method? name descriptor with
  | some method => simp [here] at chosen
  | none =>
      simp only [here, Option.map_eq_some_iff, Target.native.injEq, exists_eq_right] at chosen
      exact ⟨ancestor, chosen⟩

end ClassTable

theorem Signature.ofCall_heights {receiver : Bool} {type : MethodType} {signature : Signature}
    (called : ofCall receiver type = some signature) :
    signature.takes.length = type.parameters.length + (if receiver then 1 else 0) ∧
      signature.gives = type.result.kind := by
  obtain ⟨kinds, listed, made⟩ := Option.bind_eq_some_iff.mp called
  cases made
  have length := Outcome.option_mapM_length listed
  cases receiver <;> simp [length]

namespace Execution

open Exec

/-- What an instruction leaves alone in an invocation. -/
structure Site where
  method : PreparedMethod
  index : Nat
  slots : Nat

def siteOf (activation : Activation) : Site :=
  ⟨activation.method, activation.index, activation.locals.length⟩

/-- In every invocation at the site with at least so many operands the action fails with no
structural error, and what it comes to is good. -/
def Runs (site : Site) (height : Nat) (good : α → Activation → Prop) (action : Execution α) :
    Prop :=
  ∀ activation : Activation, siteOf activation = site → height ≤ activation.stack.length →
    Safe (fun outcome => good outcome.1 outcome.2) (action.run activation)

namespace Runs

variable {α β : Type} {site : Site} {height : Nat}
  {good : α → Activation → Prop} {fine : β → Activation → Prop}

theorem pure {value : α} (holds : ∀ activation : Activation, siteOf activation = site →
      height ≤ activation.stack.length → good value activation) :
    Runs site height good (Pure.pure value) :=
  fun activation same high => Safe.pure (holds activation same high)

/-- An action on the world, and what follows for the results it can have. -/
theorem bind {middle : α → Prop} {action : Exec α} {next : α → Execution β}
    (first : Safe middle action)
    (later : ∀ value, middle value → Runs site height fine (next value)) :
    Runs site height fine (liftM action >>= next) := by
  intro activation same high
  have lifted : (liftM action >>= next).run activation =
      action >>= fun value => (next value).run activation := by
    simp
  rw [lifted]
  exact first.bind fun value holds => later value holds activation same high

/-- An action on the world whose result does not matter. -/
theorem andThen {action : Exec α} {next : α → Execution β} (first : Safe (fun _ => True) action)
    (later : ∀ value, Runs site height fine (next value)) :
    Runs site height fine (liftM action >>= next) :=
  bind first fun value _ => later value

/-- Nothing follows an exception. -/
theorem raise {className text : String} {next : α → Execution β} :
    Runs site height fine (liftM (Exec.raise className text : Exec α) >>= next) :=
  have never : Safe (fun _ => False) (Exec.raise className text : Exec α) := Safe.raise className text
  bind never fun _ impossible => impossible.elim

/-- Nothing follows an error. -/
theorem fail {cause : MachineError} {next : α → Execution β} (mild : cause.isStructural = false) :
    Runs site height fine (liftM (Exec.fail cause : Exec α) >>= next) :=
  have never : Safe (fun _ => False) (Exec.fail cause : Exec α) := Safe.fail mild
  bind never fun _ impossible => impossible.elim

theorem seeWorld {next : World → Execution β}
    (later : ∀ world, Runs site height fine (next world)) :
    Runs site height fine (getThe World >>= next) :=
  fun activation same high world => later world activation same high world

theorem changeWorld {change : World → World} {next : PUnit → Execution β}
    (later : Runs site height fine (next ())) :
    Runs site height fine (modifyThe World change >>= next) :=
  fun activation same high world => later activation same high (change world)

theorem push {value : Value} {next : Unit → Execution β}
    (later : Runs site (height + 1) fine (next ())) :
    Runs site height fine (Execution.push value >>= next) := by
  intro activation same high
  exact later { activation with stack := value :: activation.stack } same
    (Nat.succ_le_succ high)

theorem pop {next : Value → Execution β}
    (later : ∀ value, Runs site height fine (next value)) :
    Runs site (height + 1) fine (Execution.pop >>= next) := by
  intro activation same high
  rcases activation with ⟨_, index, locals, _ | ⟨value, rest⟩⟩
  · simp at high
  · exact later value ⟨_, index, locals, rest⟩ same (Nat.le_of_succ_le_succ high)

theorem popKind {kind : Kind} {next : Value → Execution β}
    (later : ∀ value, Runs site height fine (next value)) :
    Runs site (height + 1) fine (Execution.popKind kind >>= next) := by
  unfold Execution.popKind
  rw [bind_assoc]
  exact pop fun value => andThen (Safe.ofType (Harmless.expectKind value kind)) later

theorem popInt {next : Int32 → Execution β}
    (later : ∀ value, Runs site height fine (next value)) :
    Runs site (height + 1) fine (Execution.popInt >>= next) := by
  unfold Execution.popInt
  rw [bind_assoc]
  exact pop fun value => andThen (Safe.ofType (Harmless.asInt value)) later

theorem popObject {action : String} {next : ObjectRef → Execution β}
    (later : ∀ value, Runs site height fine (next value)) :
    Runs site (height + 1) fine (Execution.popObject action >>= next) := by
  unfold Execution.popObject
  rw [bind_assoc]
  exact pop fun value => andThen (Safe.nonNull value action) later

theorem popMonitor {action : String} {next : Monitor → Execution β}
    (later : ∀ value, Runs site height fine (next value)) :
    Runs site (height + 1) fine (Execution.popMonitor action >>= next) := by
  unfold Execution.popMonitor
  rw [bind_assoc]
  refine pop fun value => ?_
  dsimp only
  split
  · rw [bind_assoc]
    exact raise
  · cases Monitor.ofValue? value with
    | some monitor => exact later monitor
    | none => exact fail rfl

/-- As many operands as there are can be taken at once. -/
theorem splitFront?_some {count : Nat} {values : List Value} (enough : count ≤ values.length) :
    Decoder.splitFront? count values = some (values.take count, values.drop count) := by
  induction count generalizing values with
  | zero => simp [Decoder.splitFront?]
  | succ count ih =>
      cases values with
      | nil => simp at enough
      | cons value rest => simp [Decoder.splitFront?, ih (Nat.le_of_succ_le_succ enough)]

theorem popMany {count : Nat} {next : List Value → Execution β}
    (later : ∀ values, Runs site height fine (next values)) :
    Runs site (height + count) fine (Execution.popMany count >>= next) := by
  intro activation same high
  have front : Decoder.splitFront? count activation.stack =
      some (activation.stack.take count, activation.stack.drop count) :=
    splitFront?_some (by omega)
  have left : (Execution.popMany count >>= next).run activation =
      (next (activation.stack.take count).reverse).run
        { activation with stack := activation.stack.drop count } := by
    simp [Execution.popMany, front]
  rw [left]
  exact later _ _ same (by simp; omega)

theorem readLocal {slot : UInt16} {next : Value → Execution β} (inside : slot.toNat < site.slots)
    (later : ∀ value, Runs site height fine (next value)) :
    Runs site height fine (Execution.readLocal slot >>= next) := by
  intro activation same high
  have there : slot.toNat < activation.locals.length :=
    (same ▸ inside : slot.toNat < (siteOf activation).slots)
  have found : activation.locals[slot.toNat]? = some activation.locals[slot.toNat] :=
    List.getElem?_eq_getElem there
  have left : (Execution.readLocal slot >>= next).run activation =
      (next activation.locals[slot.toNat]).run activation := by
    simp [Execution.readLocal, found]
  rw [left]
  exact later _ activation same high

theorem writeLocal {slot : UInt16} {value : Value} {next : Unit → Execution β}
    (inside : slot.toNat < site.slots) (later : Runs site height fine (next ())) :
    Runs site height fine (Execution.writeLocal slot value >>= next) := by
  intro activation same high
  have there : slot.toNat < activation.locals.length :=
    (same ▸ inside : slot.toNat < (siteOf activation).slots)
  have left : (Execution.writeLocal slot value >>= next).run activation =
      (next ()).run { activation with locals := activation.locals.set slot.toNat value } := by
    simp [Execution.writeLocal, there]
  rw [left]
  exact later _ (by simpa [siteOf] using same) high

end Runs

/-- Where an instruction goes on, with at least so many operands in the end; the result of a call is
still to come, if it has one. -/
def Follows (classes : ClassTable) (site : Site) (height : Nat) (result : Option Kind) (insn : Insn)
    (flow : Flow) (after : Activation) : Prop :=
  siteOf after = site ∧ match flow with
    | .next => insn.isTerminator = false ∧ height ≤ after.stack.length
    | .jump place => height ≤ after.stack.length ∧
        ∃ label ∈ insn.targets, Analysis.resolve site.method.labels label = .ok place
    | .return value => value.isSome = result.isSome
    | .call target _ => insn.isTerminator = false ∧ classes.Holds target ∧
        ∃ type, target.method.type = .ok type ∧
          height ≤ type.result.kind.toList.length + after.stack.length

section

variable {classes : ClassTable} {site : Site} {height : Nat}
  {result : Option Kind} {insn : Insn}

theorem next_runs {low : Nat} (continues : insn.isTerminator = false) (enough : height ≤ low) :
    Runs site low (Follows classes site height result insn)
      (pure .next : Execution Flow) :=
  .pure fun _ same high => ⟨same, continues, Nat.le_trans enough high⟩

theorem jumpTo_runs {low : Nat} {label : Label} (target : label ∈ insn.targets)
    (known : ∃ place, Analysis.resolve site.method.labels label = .ok place) (enough : height ≤ low) :
    Runs site low (Follows classes site height result insn) (jumpTo label) := by
  intro activation same high
  obtain ⟨place, found⟩ := known
  have left : (jumpTo label).run activation = pure (.jump place, activation) := by
    have labels : activation.method.labels = site.method.labels := by rw [← same]; rfl
    simp [jumpTo, PreparedMethod.position, labels, found, Except.mapError, Exec.ofMachine]
  rw [left]
  exact Safe.pure ⟨same, Nat.le_trans enough high, label, target, found⟩

theorem branchIf_runs {low : Nat} {holds : Bool} {label : Label}
    (continues : insn.isTerminator = false) (target : label ∈ insn.targets)
    (known : ∃ place, Analysis.resolve site.method.labels label = .ok place) (enough : height ≤ low) :
    Runs site low (Follows classes site height result insn)
      (branchIf holds label) := by
  cases holds with
  | false => exact next_runs continues enough
  | true => exact jumpTo_runs target known enough

theorem staticName_safe (field : FieldRef) :
    Safe (fun _ => True) (staticName classes field) := by
  unfold staticName
  split
  · exact Safe.pure trivial
  · exact Safe.fail rfl

theorem classOf_safe (value : Value) : Safe (fun _ => True) (classOf value) := by
  cases value with
  | ref object => exact Safe.reading fun heap => Harmless.className heap object
  | context => exact Safe.pure trivial
  | _ => exact Safe.fail rfl

theorem isInstance_safe (value : Value) (target : String) :
    Safe (fun _ => True) (isInstance classes value target) :=
  (classOf_safe value).andThen fun _ => Safe.pure trivial

theorem initialFields_safe (fields : classes.FieldsParse) (className : String) :
    Safe (fun _ => True) (ofMachine (initialFields classes className)) := by
  have given : ∃ filled, initialFields classes className = .ok filled := by
    refine Outcome.foldlM_ok (fun field member slots => ?_) []
    obtain ⟨ancestor, _, member⟩ := List.mem_flatMap.mp member
    cases found : classes.find? ancestor with
    | none => simp [found] at member
    | some loaded =>
        obtain ⟨entry, known, rfl⟩ := ClassTable.find?_mem found
        simp only [found, List.mem_filter] at member
        obtain ⟨type, parsed⟩ := fields entry known field member.1
        exact ⟨_, by rw [parsed]; rfl⟩
  obtain ⟨filled, success⟩ := given
  rw [success]
  exact Safe.pure trivial

theorem elementIndex_safe (array : ObjectRef) (index : Int32) :
    Safe (fun _ => True) (elementIndex array index) := by
  refine (Safe.reading fun heap => Harmless.array heap array).andThen fun values => ?_
  dsimp only
  split
  · exact Safe.pure trivial
  · exact Safe.raise _ _

/-- A value stands for the result of an instruction, whether the frame counts it or not. -/
theorem give_le (rest : Nat) (kind : Option Kind) : rest + kind.toList.length ≤ rest + 1 := by
  cases kind <;> simp

theorem dispatchStart_safe (dispatch : Dispatch) (target : MethodRef) (arguments : List Value) :
    Safe (fun _ => True) (dispatchStart dispatch target arguments) := by
  unfold dispatchStart
  split
  · exact Safe.pure trivial
  · exact Safe.raise _ _
  · exact Safe.pure trivial
  · exact classOf_safe _
  · exact Safe.pure trivial

/-- A call takes its arguments and goes on with a method that gives what its descriptor tells. -/
theorem invoke_runs {dispatch : Dispatch} {target : MethodRef} {type : MethodType} {rest : Nat}
    (typed : target.type = .ok type) (continues : insn.isTerminator = false) :
    Runs site (rest + (type.parameters.length + if dispatch.hasReceiver then 1 else 0))
      (Follows classes site (rest + type.result.kind.toList.length) result insn)
      (invoke classes dispatch target) := by
  unfold invoke
  have parsed : Safe (· = type) (ofMachine (target.type.mapError .descriptor)) := by
    rw [typed]
    exact Safe.pure rfl
  refine Runs.bind parsed fun same equal => ?_
  subst same
  refine Runs.popMany fun arguments => ?_
  refine Runs.andThen (dispatchStart_safe dispatch target arguments) fun start => ?_
  split
  · rename_i callee found
    obtain ⟨held, descriptor⟩ := ClassTable.resolve?_code found
    have calleeTyped : callee.method.type = .ok type := by
      rw [← typed]
      exact congrArg MethodType.parse descriptor
    exact Runs.pure fun activation same high =>
      ⟨same, continues, held, type, calleeTyped, by omega⟩
  · rename_i native found
    obtain ⟨ancestor, bound⟩ := ClassTable.resolve?_native found
    have gives := Native.returns_result bound typed
    refine Runs.bind (native.call_safe arguments) fun value returned => ?_
    cases value with
    | some value => exact Runs.push (next_runs continues (give_le rest type.result.kind))
    | none =>
        have void : type.result.kind = none := by
          rw [← returned] at gives
          simpa using gives
        exact next_runs continues (by simp [void])
  · exact fun _ _ _ _ => rfl

/-- Whatever the key is, the instruction jumps to one of its targets. -/
theorem switchTarget_mem (low : Int32) (default : Label) (targets : List Label) (key : Int32) :
    switchTarget low default targets key ∈ (Insn.tableSwitch low default targets).targets := by
  unfold switchTarget
  dsimp only
  split
  · cases found : targets[(key.toInt - low.toInt).toNat]? with
    | none => exact List.mem_cons_self
    | some target => exact List.mem_cons_of_mem _ (List.mem_of_getElem? found)
  · exact List.mem_cons_self

/-- An instruction that fits a frame runs where there is as much as in the frame. -/
theorem execute_runs (fields : classes.FieldsParse) {before after : KindFrame}
    (stepped : before.step result insn = some after) (room : before.locals.length ≤ site.slots)
    (known : ∀ label ∈ insn.targets, ∃ place, Analysis.resolve site.method.labels label = .ok place) :
    Runs site before.stack.length
      (Follows classes site after.stack.length result insn) (execute classes insn) := by
  have byKind : ∀ {slot : Nat} {kind : Kind}, before.locals[slot]? = some (some kind) →
      slot < site.slots := by
    intro slot kind found
    exact Nat.lt_of_lt_of_le (List.getElem?_eq_some_iff.mp found).1 room
  cases insn <;> dsimp -zeta only [execute, KindFrame.step] at stepped ⊢
  -- Slots and the shuffles of the operand stack are read off the frame itself; every other effect
  -- is that of a signature, and only its two heights are needed.
  case load kind slot =>
    split at stepped <;> simp at stepped
    rename_i found
    subst after
    refine Runs.readLocal (byKind found) fun value => ?_
    refine Runs.andThen (Safe.ofType (Harmless.expectKind value kind)) fun value => ?_
    exact Runs.push (next_runs rfl (by simp))
  case store kind slot =>
    rcases stack : before.stack with _ | ⟨_ | top, rest⟩ <;> simp only [stack] at stepped
    · simp at stepped
    · simp at stepped
    split at stepped
    · obtain ⟨locals, written, rfl⟩ := Option.map_eq_some_iff.mp stepped
      have inside : slot.toNat < site.slots := by
        have positive := kind.size_pos
        unfold KindFrame.setLocal at written
        split at written
        · simp at written
        · omega
      refine Runs.popKind fun value => Runs.writeLocal inside ?_
      exact next_runs rfl (Nat.le_refl _)
    · simp at stepped
  case increment slot amount =>
    split at stepped <;> simp at stepped
    rename_i found
    subst after
    refine Runs.readLocal (byKind found) fun value => ?_
    refine Runs.andThen (Safe.ofType (Harmless.asInt value)) fun value => ?_
    exact Runs.writeLocal (byKind found) (next_runs rfl (Nat.le_refl _))
  case pop =>
    rcases stack : before.stack with _ | ⟨top, rest⟩ <;> simp [stack] at stepped
    subst after
    exact Runs.pop fun _ => next_runs rfl (Nat.le_refl _)
  case dup =>
    rcases stack : before.stack with _ | ⟨top, rest⟩ <;> simp [stack] at stepped
    subst after
    exact Runs.pop fun _ => Runs.push (Runs.push (next_runs rfl (Nat.le_refl _)))
  case dupBelow =>
    rcases stack : before.stack with _ | ⟨top, _ | ⟨second, rest⟩⟩ <;> simp [stack] at stepped
    subst after
    exact Runs.pop fun _ => Runs.pop fun _ =>
      Runs.push (Runs.push (Runs.push (next_runs rfl (Nat.le_refl _))))
  case swap =>
    rcases stack : before.stack with _ | ⟨top, _ | ⟨second, rest⟩⟩ <;> simp [stack] at stepped
    subst after
    exact Runs.pop fun _ => Runs.pop fun _ =>
      Runs.push (Runs.push (next_runs rfl (Nat.le_refl _)))
  all_goals
    obtain ⟨signature, chosen, applied⟩ := Option.bind_eq_some_iff.mp stepped
    obtain ⟨rest, high, low⟩ := KindFrame.apply_heights applied
    rw [high, low]
    simp only [Signature.ofInsn] at chosen
  case label | line | nop =>
    cases chosen
    exact next_runs rfl (Nat.le_refl _)
  case constNull | intConst | longConst | floatConst | doubleConst =>
    cases chosen
    exact Runs.push (next_runs rfl (Nat.le_refl _))
  case textConst =>
    cases chosen
    exact Runs.andThen (Safe.changing _) fun _ => Runs.push (next_runs rfl (Nat.le_refl _))
  case binary kind op =>
    split at chosen <;> cases chosen
    refine Runs.popKind fun b => Runs.popKind fun a => ?_
    refine Runs.andThen (Safe.ofType (Harmless.binary? kind op a b)) fun value => ?_
    cases value with
    | some value => exact Runs.push (next_runs rfl (Nat.le_refl _))
    | none => exact Runs.raise
  case neg kind =>
    split at chosen <;> cases chosen
    refine Runs.popKind fun value => ?_
    refine Runs.andThen (Safe.ofType (Harmless.negate value)) fun value => ?_
    exact Runs.push (next_runs rfl (Nat.le_refl _))
  case convert source target =>
    split at chosen <;> cases chosen
    refine Runs.popKind fun value => ?_
    refine Runs.andThen (Safe.ofType (Harmless.convert value target)) fun value => ?_
    exact Runs.push (next_runs rfl (Nat.le_refl _))
  case compare kind =>
    split at chosen <;> cases chosen
    refine Runs.popKind fun b => Runs.popKind fun a => ?_
    refine Runs.andThen (Safe.ofType (Harmless.compare a b)) fun value => ?_
    exact Runs.push (next_runs rfl (Nat.le_refl _))
  case jump target =>
    cases chosen
    have here : target ∈ (Insn.jump target).targets := by simp [Insn.targets]
    exact jumpTo_runs here (known target here) (Nat.le_refl _)
  case branch condition target =>
    cases chosen
    have here : target ∈ (Insn.branch condition target).targets := by simp [Insn.targets]
    exact Runs.popInt fun _ => branchIf_runs rfl here (known target here) (Nat.le_refl _)
  case branchCompare condition target =>
    cases chosen
    have here : target ∈ (Insn.branchCompare condition target).targets := by simp [Insn.targets]
    exact Runs.popInt fun _ => Runs.popInt fun _ =>
      branchIf_runs rfl here (known target here) (Nat.le_refl _)
  case branchNull target | branchNonNull target =>
    cases chosen
    exact Runs.popKind fun _ => branchIf_runs rfl List.mem_cons_self
      (known target List.mem_cons_self) (Nat.le_refl _)
  case branchSame target | branchDifferent target =>
    cases chosen
    exact Runs.popKind fun _ => Runs.popKind fun _ => branchIf_runs rfl List.mem_cons_self
      (known target List.mem_cons_self) (Nat.le_refl _)
  case tableSwitch bottom default targets =>
    cases chosen
    have here := switchTarget_mem bottom default targets
    exact Runs.popInt fun key => jumpTo_runs (here key) (known _ (here key)) (Nat.le_refl _)
  case new className =>
    cases chosen
    dsimp only
    split
    · exact Runs.fail rfl
    · refine Runs.andThen (initialFields_safe fields className) fun slots => ?_
      exact Runs.andThen (Safe.changing _) fun _ => Runs.push (next_runs rfl (Nat.le_refl _))
  case getField field =>
    obtain ⟨type, _, chosen⟩ := Option.bind_eq_some_iff.mp chosen
    cases chosen
    refine Runs.popObject fun receiver => ?_
    refine Runs.andThen (Safe.reading fun heap => Harmless.get heap receiver) fun content => ?_
    dsimp only
    split
    · exact Runs.push (next_runs rfl (give_le rest type.kind))
    · exact Runs.fail rfl
  case putField field =>
    obtain ⟨type, _, chosen⟩ := Option.bind_eq_some_iff.mp chosen
    obtain ⟨kind, _, chosen⟩ := Option.bind_eq_some_iff.mp chosen
    cases chosen
    refine Runs.pop fun value => Runs.popObject fun receiver => ?_
    refine Runs.andThen (Safe.reading fun heap => Harmless.get heap receiver) fun content => ?_
    extract_lets declared
    split
    · exact Runs.fail rfl
    · exact Runs.andThen (Safe.changeHeap _) fun _ => next_runs rfl (Nat.le_refl _)
  case getStatic field =>
    obtain ⟨type, _, chosen⟩ := Option.bind_eq_some_iff.mp chosen
    cases chosen
    refine Runs.andThen (staticName_safe field) fun name => Runs.seeWorld fun world => ?_
    exact Runs.push (next_runs rfl (give_le rest type.kind))
  case putStatic field =>
    obtain ⟨type, _, chosen⟩ := Option.bind_eq_some_iff.mp chosen
    obtain ⟨kind, _, chosen⟩ := Option.bind_eq_some_iff.mp chosen
    cases chosen
    refine Runs.andThen (staticName_safe field) fun name => Runs.pop fun value => ?_
    exact Runs.changeWorld (next_runs rfl (Nat.le_refl _))
  case checkCast name =>
    obtain ⟨type, _, rfl⟩ := Option.map_eq_some_iff.mp chosen
    refine Runs.pop fun value => ?_
    dsimp only
    split
    · refine Runs.andThen (isInstance_safe value name) fun isInstance => ?_
      split
      · exact Runs.andThen (classOf_safe value) fun _ => Runs.raise
      · exact Runs.push (next_runs rfl (Nat.le_refl _))
    · exact Runs.push (next_runs rfl (Nat.le_refl _))
  case instanceOf name =>
    obtain ⟨type, _, rfl⟩ := Option.map_eq_some_iff.mp chosen
    refine Runs.pop fun value => ?_
    dsimp only
    have pushed : ∀ value : Bool, Runs site rest
        (Follows classes site (rest + 1) result (.instanceOf name))
        (push (.int (if value then 1 else 0)) >>= fun _ => pure .next) :=
      fun _ => Runs.push (next_runs rfl (Nat.le_refl _))
    split
    · exact pushed false
    · exact Runs.andThen (isInstance_safe value name) pushed
  case newArray element =>
    cases chosen
    refine Runs.popInt fun count => ?_
    dsimp only
    split
    · exact Runs.raise
    · exact Runs.andThen (Safe.changing _) fun _ => Runs.push (next_runs rfl (Nat.le_refl _))
  case arrayLength =>
    cases chosen
    refine Runs.popObject fun array => ?_
    refine Runs.andThen (Safe.reading fun heap => Harmless.array heap array) fun values => ?_
    exact Runs.push (next_runs rfl (Nat.le_refl _))
  case arrayLoad kind =>
    cases chosen
    refine Runs.popInt fun index => Runs.popObject fun array => ?_
    refine Runs.andThen (elementIndex_safe array index) fun place => ?_
    refine Runs.andThen (Safe.reading fun heap => Harmless.array heap array) fun values => ?_
    refine Runs.andThen (Safe.ofType (Harmless.expectKind _ kind)) fun value => ?_
    exact Runs.push (next_runs rfl (Nat.le_refl _))
  case arrayStore kind =>
    cases chosen
    refine Runs.popKind fun value => Runs.popInt fun index => Runs.popObject fun array => ?_
    refine Runs.andThen (elementIndex_safe array index) fun place => ?_
    exact Runs.andThen (Safe.changeHeap _) fun _ => next_runs rfl (Nat.le_refl _)
  case invoke dispatch target =>
    obtain ⟨type, typed, called⟩ := Option.bind_eq_some_iff.mp chosen
    obtain ⟨takes, gives⟩ := Signature.ofCall_heights called
    rw [takes, gives]
    exact invoke_runs (Outcome.toOption_eq_some.mp typed) rfl
  case invokeDynamic =>
    obtain ⟨type, _, _⟩ := Option.bind_eq_some_iff.mp chosen
    exact fun _ _ _ _ => rfl
  case «return» kind =>
    split at chosen <;> cases chosen
    rename_i same
    subst same
    cases kind with
    | none => exact Runs.pure fun _ same _ => ⟨same, rfl⟩
    | some kind =>
        exact Runs.popKind fun _ => Runs.pure fun _ same _ => ⟨same, rfl⟩
  case throw =>
    cases chosen
    refine Runs.popObject fun exception => ?_
    exact fun _ _ _ _ => trivial
  case monitorEnter =>
    cases chosen
    exact Runs.popMonitor fun monitor => Runs.changeWorld (next_runs rfl (Nat.le_refl _))
  case monitorExit =>
    cases chosen
    refine Runs.popMonitor fun monitor => Runs.seeWorld fun world => ?_
    dsimp only
    split
    · exact Runs.changeWorld (next_runs rfl (Nat.le_refl _))
    · exact Runs.raise

end

end Execution

end StackCoroutine
