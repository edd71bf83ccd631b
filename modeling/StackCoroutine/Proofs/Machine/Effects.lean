import StackCoroutine.Proofs.Machine.Agreement

/-!
Every instruction has the same effect in the analysis and in the machine: what it pushes is of the
category its frame value stands for, and what it takes and keeps is the same on both sides.
-/

namespace StackCoroutine

namespace Arithmetic

theorem binary?_kind {kind : Kind} {op : BinaryOp} {a b value : Value} (numbers : a.kind = kind)
    (done : binary? kind op a b = .ok (some value)) : value.kind = kind := by
  unfold binary? at done
  split at done
  · obtain ⟨result, _, rfl⟩ := Option.map_eq_some_iff.mp (Except.ok.inj done)
    exact numbers
  · obtain ⟨result, _, rfl⟩ := Option.map_eq_some_iff.mp (Except.ok.inj done)
    exact numbers
  · rename_i x y
    cases outcome : doubles op x.widen y.widen <;> simp [outcome, Except.map] at done
    subst value
    exact numbers
  · rename_i x y
    cases outcome : doubles op x y <;> simp [outcome, Except.map] at done
    subst value
    exact numbers
  · cases done

theorem negate_kind {value result : Value} (done : negate value = .ok result) :
    result.kind = value.kind := by
  cases value <;> cases done <;> rfl

theorem convert_kind {value result : Value} {target : Kind}
    (done : convert value target = .ok result) : result.kind = target := by
  cases value <;> cases target <;> cases done <;> rfl

end Arithmetic

theorem Value.expectKind_eq_ok {value same : Value} {kind : Kind}
    (expected : value.expectKind kind = .ok same) : same = value ∧ value.kind = kind := by
  unfold expectKind at expected
  split at expected
  · rename_i has
    cases expected
    exact ⟨rfl, has⟩
  · cases expected

namespace Execution

variable {tells : FrameValue → Value → Prop} {classes : ClassTable} {site : Site}
  {result : Option Kind} {insn : Insn} {index : Nat}

/-- A number is told of by the entry that it is computed from. -/
theorem number_told (telling : Telling tells) {entry : FrameValue} {value : Value} {kind : Kind}
    (fits : entry.kind = some kind) (numeric : kind ≠ .ref) (same : value.kind = kind) :
    tells entry value := by
  refine telling.ofKind (by rw [fits, same]) ?_
  rintro rfl
  exact numeric (Option.some.inj fits.symm)

/-- A value fetched for a field is on top, and its entry tells of it. -/
theorem fetched_told {field : FieldRef} {type : ValueType} {value : Value} {left : Activation}
    (parsed : ValueType.parse field.descriptor = .ok type)
    (fetched : (Insn.getStatic field).Fetches tells left) (top : left.stack.head? = some value) :
    ∃ kind, type.kind = some kind ∧ tells (.ofKind kind type.internalName) value := by
  obtain ⟨type', kind, parsed', has, told⟩ := fetched
  cases parsed.symm.trans parsed'
  exact ⟨kind, has, told value top⟩

/-- A call takes its arguments and goes on with a method that has them. -/
theorem invoke_agrees (telling : Telling tells) {dispatch : Dispatch} {target : MethodRef} :
    Agrees tells classes site result (.invoke dispatch target)
      (Transfer.execute index result (.invoke dispatch target))
      (invoke classes dispatch target) := by
  dsimp only [Transfer.execute]
  unfold invoke
  refine Agrees.descriptor fun type typed => ?_
  refine Agrees.skip (· = type) (fun gives => ?_) fun same equal => ?_
  · rw [typed] at gives
    exact (Except.ok.inj gives.ofMachine_inv).symm
  subst same
  refine Agrees.popCall telling fun arguments passed => Agrees.andThen fun start => ?_
  split
  · rename_i callee found
    -- The callee has yet to run, so its result stands for any value of its category.
    obtain ⟨held, descriptor⟩ := ClassTable.resolve?_code found
    have calleeTyped : callee.method.type = .ok type := by
      rw [← typed]
      exact congrArg MethodType.parse descriptor
    intro frame after activation left flow world last same described executed yields _
    cases yields
    refine And.intro same
      ⟨⟨dispatch, target, rfl⟩, held, type, _, calleeTyped, passed, fun value given => ?_⟩
    unfold Transfer.pushType FrameValue.ofType? at executed
    cases declared : type.result.kind with
    | none =>
        rw [declared] at given executed
        cases value with
        | some value => cases given
        | none =>
            cases executed
            exact described
    | some kind =>
        rw [declared] at given executed
        cases value with
        | none => cases given
        | some value =>
            cases executed
            have told : tells (.ofKind kind type.result.internalName) value :=
              telling.declares (Option.some.inj given)
            exact ⟨described.locals, .cons told described.stack⟩
  · rename_i native found
    obtain ⟨ancestor, bound⟩ := ClassTable.resolve?_native found
    have gives := Native.returns_result bound typed
    refine Agrees.skip _ (native.call_safe arguments).given fun value returned => ?_
    rw [← returned] at gives
    cases value with
    | some value =>
        -- Nothing is known of what a method of the machine gives but what the run promises of it.
        obtain ⟨kind, declared⟩ := Option.isSome_iff_exists.mp gives
        refine Agrees.fetched rfl fun left top fetched => ⟨kind, declared, ?_⟩
        exact fetched type kind value typed declared top
    | none =>
        have void : type.result.kind = none := by simpa using gives
        have nothing : Transfer.pushType type.result = pure () := by
          simp [Transfer.pushType, FrameValue.ofType?, void]
        rw [nothing]
        exact Agrees.next rfl
  · exact Agrees.failLast

/-- A call takes nothing but operands. -/
theorem invoke_locals {dispatch : Dispatch} {target : MethodRef} {activation left : Activation}
    {world later : World} {flow : Flow}
    (yields : Yields (invoke classes dispatch target) activation world flow left later) :
    left.locals = activation.locals := by
  unfold invoke at yields
  obtain ⟨type, _, _, typed, popping⟩ := yields.bind_inv
  obtain ⟨rfl, _⟩ := typed.lift_inv
  obtain ⟨arguments, middle, _, popped, starting⟩ := popping.bind_inv
  obtain ⟨_, same⟩ := popped.popMany_inv
  obtain ⟨start, _, _, started, calling⟩ := starting.bind_inv
  obtain ⟨rfl, _⟩ := started.lift_inv
  rw [same]
  split at calling
  · cases calling
    rfl
  · obtain ⟨value, _, _, given, pushing⟩ := calling.bind_inv
    obtain ⟨rfl, _⟩ := given.lift_inv
    cases value <;> cases pushing <;> rfl
  · exact calling.lift_inv.2.fail_never.elim

/-- An instruction that the frame before it allows leaves what the frame after it describes. -/
theorem execute_agrees (telling : Telling tells) :
    Agrees tells classes site result insn (Transfer.execute index result insn)
      (execute classes insn) := by
  cases insn <;> dsimp -zeta only [execute, Transfer.execute]
  -- Both programs are followed action by action: what one does with a value, the other does with
  -- the entry that tells of it.
  case label | line | nop => exact Agrees.next rfl
  case constNull => exact Agrees.pushLast telling.null (Agrees.next rfl)
  case intConst | longConst | floatConst | doubleConst =>
    exact Agrees.pushLast (telling.ofKind rfl (by simp)) (Agrees.next rfl)
  case textConst =>
    exact Agrees.andThen fun object => Agrees.pushLast (telling.ofKind rfl (by simp)) (Agrees.next rfl)
  case load kind slot =>
    refine Agrees.readLocal fun entry value told => Agrees.ofType fun same expected => ?_
    obtain ⟨rfl, has⟩ := Value.expectKind_eq_ok expected
    split
    · rename_i fits
      have known : entry ≠ .uninitialized := by
        rintro rfl
        simp [FrameValue.hasKind, FrameValue.kind] at fits
      exact Agrees.pushLast (told known) (Agrees.next rfl)
    · exact Agrees.refuseLast
  case store kind slot =>
    exact Agrees.popKinds fun entry value _ _ told => Agrees.writeLocal rfl told
  case increment slot amount => exact Agrees.increment telling rfl
  case pop => exact Agrees.pop fun _ _ _ => Agrees.next rfl
  case dup =>
    exact Agrees.pop fun _ _ told => Agrees.push told (Agrees.pushLast told (Agrees.next rfl))
  case dupBelow =>
    exact Agrees.pop fun _ _ top => Agrees.pop fun _ _ second =>
      Agrees.push top (Agrees.push second (Agrees.pushLast top (Agrees.next rfl)))
  case swap =>
    exact Agrees.pop fun _ _ top => Agrees.pop fun _ _ second =>
      Agrees.push top (Agrees.pushLast second (Agrees.next rfl))
  case binary kind op =>
    refine Agrees.operandsFor fun numeric => ?_
    refine Agrees.popKinds fun _ b _ _ _ => Agrees.popKinds fun entry a fits has _ => ?_
    refine Agrees.ofType fun outcome done => ?_
    cases outcome with
    | some value =>
        have kept := Arithmetic.binary?_kind has done
        exact Agrees.pushLast (number_told telling fits numeric kept) (Agrees.next rfl)
    | none => exact Agrees.raise
  case neg kind =>
    refine Agrees.numeric fun numeric => Agrees.popKinds fun entry value fits has _ => ?_
    refine Agrees.ofType fun negated done => ?_
    have kept := (Arithmetic.negate_kind done).trans has
    exact Agrees.pushLast (number_told telling fits numeric kept) (Agrees.next rfl)
  case convert source target =>
    refine Agrees.numeric fun _ => Agrees.popKinds fun _ value _ _ _ => ?_
    refine Agrees.numeric fun _ => Agrees.ofType fun converted done => ?_
    exact Agrees.pushLast (telling.declares (Arithmetic.convert_kind done)) (Agrees.next rfl)
  case compare kind =>
    refine Agrees.numeric fun _ => ?_
    refine Agrees.popKinds fun _ b _ _ _ => Agrees.popKinds fun _ a _ _ _ => ?_
    exact Agrees.ofType fun order _ =>
      Agrees.pushLast (telling.ofKind rfl (by simp)) (Agrees.next rfl)
  case jump target => exact Agrees.jumpTo List.mem_cons_self
  case branch condition target =>
    exact Agrees.popInt fun _ _ => Agrees.branchIf rfl List.mem_cons_self
  case branchCompare condition target =>
    exact Agrees.popInt fun _ _ => Agrees.popInt fun _ _ => Agrees.branchIf rfl List.mem_cons_self
  case branchNull target | branchNonNull target =>
    exact Agrees.popKinds fun _ _ _ _ _ => Agrees.branchIf rfl List.mem_cons_self
  case branchSame target | branchDifferent target =>
    exact Agrees.popKinds fun _ _ _ _ _ => Agrees.popKinds fun _ _ _ _ _ =>
      Agrees.branchIf rfl List.mem_cons_self
  case tableSwitch low default targets =>
    exact Agrees.popInt fun _ key => Agrees.jumpTo (switchTarget_mem low default targets key)
  case new className =>
    dsimp only
    split
    · exact Agrees.fail
    · exact Agrees.andThen fun fields => Agrees.andThen fun object =>
        Agrees.pushLast (telling.ofKind rfl (by simp)) (Agrees.next rfl)
  case getField field =>
    refine Agrees.descriptor fun type parsed => Agrees.popObject fun _ receiver => ?_
    refine Agrees.andThen fun content => ?_
    dsimp only
    split
    · exact Agrees.fetched rfl fun _ top fetched => fetched_told parsed fetched top
    · exact Agrees.fail
  case putField field =>
    refine Agrees.descriptor fun type parsed => Agrees.popType fun value => ?_
    refine Agrees.popObject fun _ receiver => Agrees.andThen fun content => ?_
    extract_lets declared
    split
    · exact Agrees.fail
    · exact Agrees.andThen fun _ => Agrees.next rfl
  case getStatic field =>
    refine Agrees.descriptor fun type parsed => Agrees.andThen fun name => ?_
    refine Agrees.seeWorld fun world => ?_
    exact Agrees.fetched rfl fun _ top fetched => fetched_told parsed fetched top
  case putStatic field =>
    refine Agrees.descriptor fun type parsed => Agrees.andThen fun name => ?_
    rw [← bind_pure (Transfer.popType index type)]
    exact Agrees.popType fun value => Agrees.changeWorld (Agrees.next rfl)
  case checkCast name =>
    refine Agrees.descriptor fun type parsed => Agrees.popKind fun entry value fits told => ?_
    have pushed : Agrees tells classes site result (.checkCast name)
        (Transfer.push (.reference name)) (push value >>= fun _ => pure .next) := by
      have cast : tells (.ofKind .ref name) value := telling.declared told fits
      exact Agrees.pushLast cast (Agrees.next rfl)
    dsimp only
    split
    · refine Agrees.andThen fun fine => ?_
      split
      · exact Agrees.andThen fun _ => Agrees.raise
      · exact pushed
    · exact pushed
  case instanceOf name =>
    refine Agrees.descriptor fun type parsed => Agrees.popKind fun entry value fits told => ?_
    have pushed : ∀ answer : Bool, Agrees tells classes site result (.instanceOf name)
        (Transfer.push .int) (push (.int (if answer then 1 else 0)) >>= fun _ => pure .next) :=
      fun _ => Agrees.pushLast (telling.ofKind rfl (by simp)) (Agrees.next rfl)
    dsimp only
    split
    · exact pushed false
    · exact Agrees.andThen pushed
  case newArray element =>
    refine Agrees.popInt fun _ length => ?_
    dsimp only
    split
    · exact Agrees.raise
    · exact Agrees.andThen fun object =>
        Agrees.pushLast (telling.ofKind rfl (by simp)) (Agrees.next rfl)
  case arrayLength =>
    exact Agrees.popObject fun _ array => Agrees.andThen fun values =>
      Agrees.pushLast (telling.ofKind rfl (by simp)) (Agrees.next rfl)
  case arrayLoad kind =>
    refine Agrees.popInt fun _ place => Agrees.popObject fun array object => ?_
    refine Agrees.andThen fun place => Agrees.andThen fun values => ?_
    refine Agrees.ofType fun value expected => ?_
    obtain ⟨rfl, has⟩ := Value.expectKind_eq_ok expected
    refine Agrees.pushLast (telling.ofKind ?_ ?_) (Agrees.next rfl)
    · split
      · rename_i reference
        rw [has, reference]
        rfl
      · rw [has]
        exact FrameValue.ofKind_kind kind _
    · split
      · simp
      · exact FrameValue.ofKind_ne_null kind _
  case arrayStore kind =>
    exact Agrees.popKinds fun _ value _ _ _ => Agrees.popInt fun _ place =>
      Agrees.popObject fun _ array => Agrees.andThen fun _ => Agrees.andThen fun _ =>
        Agrees.next rfl
  case invoke dispatch target => exact invoke_agrees telling
  case invokeDynamic name descriptor => exact Agrees.failLast
  case «return» kind =>
    dsimp only
    split
    · exact Agrees.refuse
    · rename_i same
      obtain rfl : kind = result := by simpa using same
      cases kind with
      | none => exact Agrees.pure fun _ _ same _ => And.intro same rfl
      | some kind =>
          exact Agrees.popKinds fun _ _ _ has _ =>
            Agrees.pure fun _ _ same _ => And.intro same (congrArg some has)
  case throw =>
    refine Agrees.popObject fun _ exception => ?_
    exact fun _ _ _ _ _ _ _ _ _ _ yields => by cases yields
  case monitorEnter =>
    exact Agrees.popMonitor fun _ monitor => Agrees.changeWorld (Agrees.next rfl)
  case monitorExit =>
    refine Agrees.popMonitor fun _ monitor => Agrees.seeWorld fun world => ?_
    dsimp only
    split
    · exact Agrees.changeWorld (Agrees.next rfl)
    · exact Agrees.raise

end Execution

end StackCoroutine
