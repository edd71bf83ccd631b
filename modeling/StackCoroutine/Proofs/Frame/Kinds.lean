import Mathlib.Data.List.Induction
import StackCoroutine.Frame.Transfer
import StackCoroutine.Proofs.Outcome

/-!
Frames seen by storage category alone. Whether an instruction fits a frame, and the categories it
leaves, do not depend on the names of references; so the effect of an instruction is a function of
categories, and the transfer of the frame analysis agrees with it.
-/

namespace StackCoroutine

/-- A frame by storage categories, none for what holds no usable value. -/
structure KindFrame where
  locals : List (Option Kind)
  /-- Top first. -/
  stack : List (Option Kind)
  deriving DecidableEq, Repr

def Frame.kinds (frame : Frame) : KindFrame :=
  ⟨frame.locals.map FrameValue.kind, frame.stack.map FrameValue.kind⟩

/-- Categories an instruction takes off the stack, the top first, and that of its result. -/
structure Signature where
  takes : List Kind
  gives : Option Kind
  deriving DecidableEq, Repr

namespace Signature

/-- Takes the given categories first. -/
def under (kinds : List Kind) (signature : Signature) : Signature :=
  { signature with takes := kinds ++ signature.takes }

/-- The operator computes on values of the category. -/
def computes (op : BinaryOp) : Kind → Bool
  | .int | .long => true
  | .float | .double => op.allowsFloat
  | .ref => false

/-- Takes the parameters of a call, the last on top, and the receiver below them. -/
def ofCall (receiver : Bool) (type : MethodType) : Option Signature := do
  let parameters ← type.parameters.mapM ValueType.kind
  return ⟨parameters.reverse ++ if receiver then [.ref] else [], type.result.kind⟩

/-- The signature an instruction has by itself. Instructions that read or write local slots or
move entries of any category have none, and neither have those that never fit a frame. -/
def ofInsn (result : Option Kind) : Insn → Option Signature
  | .label _ | .line _ | .nop | .jump _ => some ⟨[], none⟩
  | .constNull | .textConst _ | .new _ => some ⟨[], some .ref⟩
  | .intConst _ => some ⟨[], some .int⟩
  | .longConst _ => some ⟨[], some .long⟩
  | .floatConst _ => some ⟨[], some .float⟩
  | .doubleConst _ => some ⟨[], some .double⟩
  | .binary kind op => if computes op kind then some ⟨[kind, kind], some kind⟩ else none
  | .neg kind => if kind = .ref then none else some ⟨[kind], some kind⟩
  | .convert source target =>
      if source = .ref ∨ target = .ref then none else some ⟨[source], some target⟩
  | .compare kind => if kind = .ref then none else some ⟨[kind, kind], some .int⟩
  | .branch .. | .tableSwitch .. => some ⟨[.int], none⟩
  | .branchCompare .. => some ⟨[.int, .int], none⟩
  | .branchNull _ | .branchNonNull _ => some ⟨[.ref], none⟩
  | .branchSame _ | .branchDifferent _ => some ⟨[.ref, .ref], none⟩
  | .getField field => do
      let type ← (ValueType.parse field.descriptor).toOption
      return ⟨[.ref], type.kind⟩
  | .putField field => do
      let type ← (ValueType.parse field.descriptor).toOption
      return ⟨[← type.kind, .ref], none⟩
  | .getStatic field => do
      let type ← (ValueType.parse field.descriptor).toOption
      return ⟨[], type.kind⟩
  | .putStatic field => do
      let type ← (ValueType.parse field.descriptor).toOption
      return ⟨[← type.kind], none⟩
  | .checkCast name => (ValueType.ofInternalName name).toOption.map fun _ => ⟨[.ref], some .ref⟩
  | .instanceOf name => (ValueType.ofInternalName name).toOption.map fun _ => ⟨[.ref], some .int⟩
  | .newArray _ => some ⟨[.int], some .ref⟩
  | .arrayLength => some ⟨[.ref], some .int⟩
  | .arrayLoad kind => some ⟨[.int, .ref], some kind⟩
  | .arrayStore kind => some ⟨[kind, .int, .ref], none⟩
  | .invoke dispatch method => do ofCall dispatch.hasReceiver (← method.type.toOption)
  | .invokeDynamic _ descriptor => do ofCall false (← (MethodType.parse descriptor).toOption)
  | .return kind => if kind = result then some ⟨kind.toList, none⟩ else none
  | .throw | .monitorEnter | .monitorExit => some ⟨[.ref], none⟩
  | .load .. | .store .. | .increment .. | .pop | .dup | .dupBelow | .swap => none

end Signature

namespace KindFrame

/-- The stack below the given categories, if they are on top of it. -/
def take : List Kind → List (Option Kind) → Option (List (Option Kind))
  | [], stack => some stack
  | kind :: rest, some top :: stack => if top = kind then take rest stack else none
  | _ :: _, _ => none

/-- Local slots of what has the category. -/
def size : Option Kind → Nat
  | some kind => kind.size
  | none => 1

/-- Puts a value of the category into a slot. -/
def setLocal (locals : List (Option Kind)) (slot : Nat) (kind : Kind) :
    Option (List (Option Kind)) :=
  if slot + kind.size > locals.length then none
  else
    let cut := 0 < slot && locals[slot - 1]?.map size == some 2
    let cleared := if cut then locals.set (slot - 1) none else locals
    let written := cleared.set slot (some kind)
    some (if kind.size = 2 then written.set (slot + 1) none else written)

/-- The categories after an instruction with the signature. -/
def apply (signature : Signature) (frame : KindFrame) : Option KindFrame :=
  (take signature.takes frame.stack).map fun rest =>
    { frame with stack := signature.gives.toList.map some ++ rest }

/-- The categories after an instruction. -/
def step (result : Option Kind) (insn : Insn) (frame : KindFrame) : Option KindFrame :=
  match insn with
  | .load kind slot =>
      if frame.locals[slot.toNat]? = some (some kind)
      then some { frame with stack := some kind :: frame.stack } else none
  | .store kind slot =>
      match frame.stack with
      | some top :: rest =>
          if top = kind then (setLocal frame.locals slot.toNat kind).map fun locals => ⟨locals, rest⟩
          else none
      | _ => none
  | .increment slot _ =>
      if frame.locals[slot.toNat]? = some (some .int) then some frame else none
  | .pop =>
      match frame.stack with
      | _ :: rest => some { frame with stack := rest }
      | _ => none
  | .dup =>
      match frame.stack with
      | top :: rest => some { frame with stack := top :: top :: rest }
      | _ => none
  | .dupBelow =>
      match frame.stack with
      | top :: second :: rest => some { frame with stack := top :: second :: top :: rest }
      | _ => none
  | .swap =>
      match frame.stack with
      | top :: second :: rest => some { frame with stack := second :: top :: rest }
      | _ => none
  | insn => (Signature.ofInsn result insn).bind fun signature => frame.apply signature

theorem setLocal_length {locals written : List (Option Kind)} {slot : Nat} {kind : Kind}
    (done : setLocal locals slot kind = some written) : written.length = locals.length := by
  unfold setLocal at done
  split at done
  · simp at done
  · cases done
    split <;> split <;> simp

theorem apply_locals {signature : Signature} {before after : KindFrame}
    (applied : before.apply signature = some after) : after.locals = before.locals := by
  obtain ⟨rest, _, rfl⟩ := Option.map_eq_some_iff.mp applied
  rfl

theorem take_length {kinds : List Kind} {stack rest : List (Option Kind)}
    (taken : take kinds stack = some rest) : stack.length = rest.length + kinds.length := by
  fun_induction take kinds stack generalizing rest with
  | case1 stack => simp_all
  | case2 kind kinds stack ih =>
      have tail := ih taken
      simp [tail]
      omega
  | case3 => simp at taken
  | case4 => simp at taken

/-- An instruction with a signature changes the height as the signature tells, and no local slot. -/
theorem apply_heights {signature : Signature} {before after : KindFrame}
    (applied : before.apply signature = some after) :
    ∃ rest, before.stack.length = rest + signature.takes.length ∧
      after.stack.length = rest + signature.gives.toList.length := by
  obtain ⟨rest, taken, rfl⟩ := Option.map_eq_some_iff.mp applied
  refine ⟨rest.length, take_length taken, ?_⟩
  simp
  omega

/-- No instruction changes the number of local slots. -/
theorem step_locals {result : Option Kind} {insn : Insn} {before after : KindFrame}
    (stepped : before.step result insn = some after) :
    after.locals.length = before.locals.length := by
  cases insn <;> dsimp only [step] at stepped
  case load | increment | pop | dup | dupBelow | swap =>
    split at stepped <;> simp at stepped
    rw [← stepped]
  case store kind slot =>
    split at stepped
    · split at stepped
      · obtain ⟨locals, written, rfl⟩ := Option.map_eq_some_iff.mp stepped
        exact setLocal_length written
      · simp at stepped
    · simp at stepped
  all_goals
    obtain ⟨signature, _, applied⟩ := Option.bind_eq_some_iff.mp stepped
    rw [apply_locals applied]

/-- No instruction makes the stack higher by more than one entry. -/
theorem step_height {result : Option Kind} {insn : Insn} {before after : KindFrame}
    (stepped : before.step result insn = some after) :
    after.stack.length ≤ before.stack.length + 1 := by
  obtain ⟨locals, stack⟩ := before
  cases insn <;> dsimp only [step] at stepped
  case load | increment =>
    split at stepped <;> simp at stepped
    simp [← stepped]
  case pop | dup | dupBelow | swap =>
    split at stepped <;> simp at stepped
    rw [← stepped]
    simp only [List.length_cons]
    omega
  case store kind slot =>
    split at stepped
    · split at stepped
      · obtain ⟨locals, _, rfl⟩ := Option.map_eq_some_iff.mp stepped
        simp
        omega
      · simp at stepped
    · simp at stepped
  all_goals
    obtain ⟨signature, _, applied⟩ := Option.bind_eq_some_iff.mp stepped
    obtain ⟨rest, high, low⟩ := apply_heights applied
    have gives : signature.gives.toList.length ≤ 1 := by cases signature.gives <;> simp
    omega

end KindFrame

namespace Transfer

/-- The categories of the frame a transfer leaves, none if it finds the frame unfit. -/
def kindsAfter (transfer : Transfer α) (frame : Frame) : Option KindFrame :=
  (transfer.run frame).toOption.map fun outcome => outcome.2.kinds

variable {α β : Type} (frame : Frame) (index : Nat)

theorem kindsAfter_pure (value : α) :
    kindsAfter (pure value : Transfer α) frame = some frame.kinds := rfl

theorem kindsAfter_fail (cause : AnalyzeError) :
    kindsAfter (fail cause : Transfer α) frame = none := rfl

theorem kindsAfter_push (value : FrameValue) :
    (push value).kindsAfter frame = some ⟨frame.kinds.locals, value.kind :: frame.kinds.stack⟩ :=
  rfl

theorem kindsAfter_bind (first : Transfer α) (next : α → Transfer β) :
    (first >>= next).kindsAfter frame =
      match first.run frame with
      | .ok (value, after) => (next value).kindsAfter after
      | .error _ => none := by
  unfold kindsAfter
  rw [StateT.run_bind]
  cases first.run frame <;> rfl

theorem kindsAfter_pop_bind (next : FrameValue → Transfer β) :
    (pop index >>= next).kindsAfter frame =
      match frame.stack with
      | [] => none
      | value :: rest => (next value).kindsAfter { frame with stack := rest } := by
  rw [kindsAfter_bind]
  cases stack : frame.stack <;> simp [pop, StateT.run, stack]

theorem kindsAfter_popKind_bind (kind : Kind) (next : FrameValue → Transfer β) :
    (popKind index kind >>= next).kindsAfter frame =
      match frame.stack with
      | [] => none
      | value :: rest =>
          if value.kind = some kind then (next value).kindsAfter { frame with stack := rest }
          else none := by
  unfold popKind
  rw [bind_assoc, kindsAfter_pop_bind]
  cases frame.stack with
  | nil => rfl
  | cons value rest =>
      by_cases fits : value.kind = some kind
      · simp [FrameValue.hasKind, fits]
      · simp only [FrameValue.hasKind, fits, beq_iff_eq, if_false]
        rw [kindsAfter_bind]
        rfl

theorem kindsAfter_readLocal_bind (slot : Nat) (next : FrameValue → Transfer β) :
    (readLocal index slot >>= next).kindsAfter frame =
      frame.locals[slot]?.bind fun value => (next value).kindsAfter frame := by
  rw [kindsAfter_bind]
  cases found : frame.locals[slot]? <;> simp [readLocal, StateT.run, found]

theorem kindsAfter_push_bind (value : FrameValue) (next : Unit → Transfer β) :
    (push value >>= next).kindsAfter frame =
      (next ()).kindsAfter { frame with stack := value :: frame.stack } := by
  rw [kindsAfter_bind]
  rfl

theorem kindsAfter_lift_bind (outcome : Except AnalyzeError α) (next : α → Transfer β) :
    (lift outcome >>= next).kindsAfter frame =
      outcome.toOption.bind fun value => (next value).kindsAfter frame := by
  rw [kindsAfter_bind]
  cases outcome <;> rfl

theorem kind_ofKind (kind : Kind) (name : String) :
    (FrameValue.ofKind kind name).kind = some kind := by
  cases kind <;> rfl

theorem size_kind (value : FrameValue) : value.size = KindFrame.size value.kind := by
  cases value <;> rfl

theorem kindsAfter_writeLocal (slot : Nat) (value : FrameValue) (kind : Kind)
    (has : value.kind = some kind) :
    (writeLocal index slot value).kindsAfter frame =
      (KindFrame.setLocal frame.kinds.locals slot kind).map fun locals =>
        ⟨locals, frame.kinds.stack⟩ := by
  have size : value.size = kind.size := by rw [size_kind, has]; rfl
  unfold kindsAfter writeLocal Frame.setLocal KindFrame.setLocal
  have length : frame.kinds.locals.length = frame.locals.length := by simp [Frame.kinds]
  have cut : (frame.kinds.locals[slot - 1]?.map KindFrame.size == some 2) =
      (frame.locals[slot - 1]?.map FrameValue.size == some 2) := by
    simp only [Frame.kinds, List.getElem?_map, Option.map_map]
    congr 2
  have none_kind : FrameValue.uninitialized.kind = none := rfl
  simp only [StateT.run, size, length, cut]
  by_cases outside : slot + kind.size > frame.locals.length
  · simp only [if_pos outside, Option.map_none]
    rfl
  · simp only [if_neg outside, Except.map, Except.toOption, Option.map_some, Frame.kinds]
    split <;> split <;> simp_all [List.map_set]

/-- The transfer has the effect the signature tells on every frame; without one it fits none. -/
def Acts (transfer : Transfer α) (signature : Option Signature) : Prop :=
  ∀ frame : Frame, transfer.kindsAfter frame = signature.bind fun effect => frame.kinds.apply effect

theorem acts_pure (value : α) : Acts (pure value) (some ⟨[], none⟩) := fun _ => rfl

theorem acts_fail (cause : AnalyzeError) : Acts (fail cause : Transfer α) none := fun _ => rfl

theorem acts_push {value : FrameValue} {kind : Kind} (has : value.kind = some kind) :
    Acts (push value) (some ⟨[], some kind⟩) := by
  intro frame
  rw [kindsAfter_push, has]
  rfl

theorem acts_pushType (type : ValueType) : Acts (pushType type) (some ⟨[], type.kind⟩) := by
  unfold pushType FrameValue.ofType?
  cases type.kind with
  | none => exact acts_pure ()
  | some kind => exact acts_push (kind_ofKind kind type.internalName)

theorem acts_popKind {kind : Kind} {next : FrameValue → Transfer β} {signature : Option Signature}
    (follows : ∀ value, value.kind = some kind → Acts (next value) signature) :
    Acts (popKind index kind >>= next) (signature.map (Signature.under [kind])) := by
  intro frame
  rw [kindsAfter_popKind_bind]
  rcases frame with ⟨locals, _ | ⟨value, rest⟩⟩
  · cases signature <;> rfl
  · by_cases fits : value.kind = some kind
    · simp only [if_pos fits, follows value fits ⟨locals, rest⟩]
      cases signature <;>
        simp [KindFrame.apply, KindFrame.take, Signature.under, Frame.kinds, fits]
    · simp only [if_neg fits]
      cases signature <;> cases other : value.kind <;>
        simp_all [KindFrame.apply, KindFrame.take, Signature.under, Frame.kinds]

theorem acts_lift {outcome : Except AnalyzeError α} {next : α → Transfer β}
    {signature : α → Option Signature} (follows : ∀ value, Acts (next value) (signature value)) :
    Acts (lift outcome >>= next) (outcome.toOption.bind signature) := by
  intro frame
  rw [kindsAfter_lift_bind]
  cases outcome with
  | error cause => rfl
  | ok value => exact follows value frame

theorem acts_popType {type : ValueType} {next : Unit → Transfer β} {signature : Option Signature}
    (follows : Acts (next ()) signature) :
    Acts (popType index type >>= next)
      (type.kind.bind fun kind => signature.map (Signature.under [kind])) := by
  unfold popType
  cases type.kind with
  | none => exact acts_fail _
  | some kind =>
      simp only [bind_assoc, Option.bind_some]
      exact acts_popKind index fun value _ => follows

/-- The arguments of a call come off the stack in the order their categories are listed in, last
first. -/
theorem acts_popArguments {types : List ValueType} {next : Unit → Transfer β}
    {signature : Option Signature} (follows : Acts (next ()) signature) :
    Acts (popArguments index types >>= next)
      ((types.mapM ValueType.kind).bind fun kinds =>
        signature.map (Signature.under kinds.reverse)) := by
  unfold popArguments
  induction types using List.reverseRecOn with
  | nil => cases signature <;> simpa [Signature.under] using follows
  | append_singleton types last ih =>
      have unfolded : (types ++ [last]).reverse.forM (popType index) =
          popType index last >>= fun _ => types.reverse.forM (popType index) := by
        simp
      have same : ((types ++ [last]).mapM ValueType.kind).bind
            (fun kinds => signature.map (Signature.under kinds.reverse)) =
          last.kind.bind fun kind =>
            ((types.mapM ValueType.kind).bind fun kinds =>
              signature.map (Signature.under kinds.reverse)).map (Signature.under [kind]) := by
        rw [List.mapM_append, List.mapM_cons, List.mapM_nil]
        cases last.kind <;> cases types.mapM ValueType.kind <;> cases signature <;>
          simp [Signature.under]
      rw [unfolded, bind_assoc, same]
      exact acts_popType index ih

theorem acts_refuse {transfer : Transfer α} {next : α → Transfer β}
    (refuses : Acts transfer none) : Acts (transfer >>= next) none := by
  intro frame
  have refused := refuses frame
  rw [kindsAfter_bind]
  unfold kindsAfter at refused
  cases outcome : transfer.run frame with
  | error cause => rfl
  | ok value => simp [outcome, Except.toOption] at refused

theorem acts_numeric {kind : Kind} {next : Unit → Transfer β} {signature : Option Signature}
    (follows : Acts (next ()) signature) :
    Acts (numeric index kind >>= next) (if kind = .ref then none else signature) := by
  unfold numeric
  by_cases reference : kind = .ref
  · simp only [if_pos reference]
    exact acts_refuse (acts_fail _)
  · simp only [if_neg reference]
    exact follows

theorem operandsFor_eq (kind : Kind) (op : BinaryOp) :
    operandsFor index kind op =
      if Signature.computes op kind then pure ()
      else fail (.typeMismatch index (.operands op) (.kind kind)) := by
  cases kind <;> rfl

theorem acts_operandsFor {kind : Kind} {op : BinaryOp} {next : Unit → Transfer β}
    {signature : Option Signature} (follows : Acts (next ()) signature) :
    Acts (operandsFor index kind op >>= next)
      (if Signature.computes op kind then signature else none) := by
  rw [operandsFor_eq]
  by_cases fits : Signature.computes op kind
  · simp only [if_pos fits]
    exact follows
  · simp only [if_neg fits]
    exact acts_refuse (acts_fail _)

theorem acts_descriptor {outcome : Except DescriptorError α} {next : α → Transfer β}
    {signature : α → Option Signature} (follows : ∀ value, Acts (next value) (signature value)) :
    Acts (lift (ofDescriptor outcome) >>= next) (outcome.toOption.bind signature) := by
  have same : outcome.toOption = (ofDescriptor outcome).toOption := by cases outcome <;> rfl
  rw [same]
  exact acts_lift follows

theorem acts_popCall (receiver : Bool) (type : MethodType) :
    Acts (popArguments index type.parameters >>= fun _ =>
        if receiver then popKind index .ref >>= fun _ => pushType type.result
        else pushType type.result)
      (Signature.ofCall receiver type) := by
  have shape : Signature.ofCall receiver type =
      (type.parameters.mapM ValueType.kind).bind fun kinds =>
        (some ⟨if receiver then [.ref] else [], type.result.kind⟩).map
          (Signature.under kinds.reverse) := rfl
  rw [shape]
  apply acts_popArguments
  cases receiver with
  | false => exact acts_pushType type.result
  | true => exact acts_popKind index fun _ _ => acts_pushType type.result

/-- The effect of an instruction on a frame, by storage category. -/
theorem execute_kinds (result : Option Kind) (insn : Insn) :
    (execute index result insn).kindsAfter frame = frame.kinds.step result insn := by
  obtain ⟨locals, stack⟩ := frame
  cases insn <;> unfold execute KindFrame.step
  -- A frame of categories has one entry a slot, as the frame itself has, so each case reads both at
  -- the same place.
  case load kind slot =>
    rw [kindsAfter_readLocal_bind]
    cases found : locals[slot.toNat]? with
    | none => simp [Frame.kinds, found]
    | some value =>
        by_cases fits : value.kind = some kind <;>
          simp [Frame.kinds, found, FrameValue.hasKind, fits, kindsAfter_push, kindsAfter_fail]
  case store kind slot =>
    rw [kindsAfter_popKind_bind]
    rcases stack with _ | ⟨value, rest⟩
    · rfl
    · by_cases fits : value.kind = some kind
      · simp only [fits, if_true, kindsAfter_writeLocal _ index slot.toNat value kind fits]
        simp [Frame.kinds, fits]
      · cases other : value.kind <;> simp_all [Frame.kinds]
  case increment slot amount =>
    rw [kindsAfter_readLocal_bind]
    cases found : locals[slot.toNat]? with
    | none => simp [Frame.kinds, found]
    | some value =>
        cases value <;> simp [Frame.kinds, found, FrameValue.kind, kindsAfter_pure,
          kindsAfter_fail]
  case pop =>
    rw [kindsAfter_pop_bind]
    rcases stack with _ | ⟨top, rest⟩ <;> rfl
  case dup =>
    rcases stack with _ | ⟨top, rest⟩ <;>
      simp [kindsAfter_pop_bind, kindsAfter_push_bind, kindsAfter_push, Frame.kinds]
  case dupBelow =>
    rcases stack with _ | ⟨top, _ | ⟨second, rest⟩⟩ <;>
      simp [kindsAfter_pop_bind, kindsAfter_push_bind, kindsAfter_push, Frame.kinds]
  case swap =>
    rcases stack with _ | ⟨top, _ | ⟨second, rest⟩⟩ <;>
      simp [kindsAfter_pop_bind, kindsAfter_push_bind, kindsAfter_push, Frame.kinds]
  all_goals refine (?_ : Acts _ (Signature.ofInsn result _)) ⟨locals, stack⟩
  case label | line | nop | jump => exact acts_pure ()
  case constNull | intConst | longConst | floatConst | doubleConst | textConst | new =>
    exact acts_push rfl
  case branch | tableSwitch | branchNull | branchNonNull | throw | monitorEnter | monitorExit =>
    exact acts_popKind index fun _ _ => acts_pure ()
  case branchCompare | branchSame | branchDifferent =>
    exact acts_popKind index fun _ _ => acts_popKind index fun _ _ => acts_pure ()
  case newArray | arrayLength => exact acts_popKind index fun _ _ => acts_push rfl
  case arrayStore =>
    exact acts_popKind index fun _ _ => acts_popKind index fun _ _ =>
      acts_popKind index fun _ _ => acts_pure ()
  case arrayLoad kind =>
    refine acts_popKind index fun _ _ => acts_popKind index fun array _ => acts_push ?_
    cases kind <;> rfl
  case binary kind op =>
    refine acts_operandsFor index ?_
    exact acts_popKind index fun _ _ => acts_popKind index fun _ has => acts_push has
  case neg =>
    exact acts_numeric index (acts_popKind index fun _ has => acts_push has)
  case convert source target =>
    have pushed : Acts (numeric index target >>= fun _ => push (elementValue target))
        (if target = .ref then none else some ⟨[], some target⟩) :=
      acts_numeric index (acts_push (kind_ofKind target target.elementType.internalName))
    have popped : Acts (popKind index source >>= fun _ =>
        numeric index target >>= fun _ => push (elementValue target)) _ :=
      acts_popKind index fun _ _ => pushed
    have acts : Acts (numeric index source >>= fun _ => popKind index source >>= fun _ =>
        numeric index target >>= fun _ => push (elementValue target)) _ :=
      acts_numeric index popped
    cases source <;> cases target <;> exact acts
  case compare =>
    exact acts_numeric index (acts_popKind index fun _ _ =>
      acts_popKind index fun _ _ => acts_push rfl)
  case getField =>
    exact acts_descriptor fun type => acts_popKind index fun _ _ => acts_pushType type
  case putField =>
    refine acts_descriptor fun type => ?_
    have popped : Acts (popType index type >>= fun _ => popKind index .ref >>= fun _ => pure ())
        (type.kind.bind fun kind => (some ⟨[.ref], none⟩).map (Signature.under [kind])) :=
      acts_popType index (acts_popKind index fun _ _ => acts_pure ())
    exact popped
  case getStatic => exact acts_descriptor acts_pushType
  case putStatic =>
    refine acts_descriptor fun type => ?_
    rw [← bind_pure (popType index type)]
    exact acts_popType index (acts_pure ())
  case checkCast name =>
    have acts : Acts (lift (ofDescriptor (ValueType.ofInternalName name)) >>= fun _ =>
        popKind index .ref >>= fun _ => push (.reference name)) _ :=
      acts_descriptor fun _ => acts_popKind index fun _ _ => acts_push rfl
    cases outcome : ValueType.ofInternalName name <;> rw [outcome] at acts <;>
      simp only [Signature.ofInsn, outcome] <;> exact acts
  case instanceOf name =>
    have acts : Acts (lift (ofDescriptor (ValueType.ofInternalName name)) >>= fun _ =>
        popKind index .ref >>= fun _ => push .int) _ :=
      acts_descriptor fun _ => acts_popKind index fun _ _ => acts_push rfl
    cases outcome : ValueType.ofInternalName name <;> rw [outcome] at acts <;>
      simp only [Signature.ofInsn, outcome] <;> exact acts
  case invoke dispatch method => exact acts_descriptor (acts_popCall index dispatch.hasReceiver)
  case invokeDynamic => exact acts_descriptor (acts_popCall index false)
  case «return» kind =>
    by_cases agrees : kind = result
    · simp only [Signature.ofInsn, agrees, ne_eq, not_true_eq_false, if_true, if_false]
      cases result with
      | none => exact acts_pure ()
      | some kind => exact acts_popKind index fun _ _ => acts_pure ()
    · simp only [Signature.ofInsn, agrees, ne_eq, not_false_eq_true, if_true, if_false]
      exact acts_refuse (acts_fail _)

theorem execute_step {result : Option Kind} {insn : Insn} {before after : Frame}
    (executed : (execute index result insn).run before = .ok ((), after)) :
    before.kinds.step result insn = some after.kinds := by
  rw [← execute_kinds before index, kindsAfter, executed]
  rfl

end Transfer

end StackCoroutine
