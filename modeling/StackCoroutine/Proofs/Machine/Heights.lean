import StackCoroutine.Proofs.Frame.ControlFlow
import StackCoroutine.Proofs.Machine.Described

/-!
Heights of operand stacks. An analysis allows for the highest of its frames, so an invocation within
its frames never has more operands than its method declares. A read of a field that is declared to
be void takes it out of its frames: the analysis pushes nothing, the machine what the field holds.
-/

namespace StackCoroutine

theorem Verification.verifyMethod_heights {hierarchy : Hierarchy} {owner : String} {method : Method}
    {known : Analysis} (verified : verifyMethod hierarchy owner method = .ok known) {index : Nat}
    {frame : Frame} (found : known.frame? index = some frame) :
    frame.stack.length ≤ method.maxStack.toNat := by
  obtain ⟨labels, handlers, result, first, prepared, sound⟩ :=
    Analysis.analyze_sound (Frame.within_joining hierarchy) (verifyMethod_analyze verified)
  obtain ⟨_, _, _, _, empty⟩ := Frame.entry_eq_ok prepared.entered
  obtain ⟨same, found', low⟩ :=
    sound.height_le (fun within => within.1) empty (sound.reached index frame found)
  cases found.symm.trans found'
  refine Nat.le_trans low ?_
  unfold verifyMethod at verified
  dsimp only at verified
  split at verified
  · exact absurd verified Outcome.throw_bind_ne_ok
  obtain ⟨analysis, _, verified⟩ := Outcome.bind_eq_ok.mp verified
  split at verified
  · exact absurd verified Outcome.throw_bind_ne_ok
  · rename_i enough
    cases Outcome.pure_eq_ok.mp verified
    exact Nat.not_lt.mp enough

/-- The instruction reads no field that is declared to be void. -/
def Insn.readsValue (insn : Insn) : Bool :=
  match insn with
  | .getField field | .getStatic field =>
      ((ValueType.parse field.descriptor).toOption.bind ValueType.kind).isSome
  | _ => true

theorem Insn.fetches_of_readsValue {insn : Insn} (reads : insn.readsValue = true)
    (left : Activation) : insn.Fetches (fun _ _ => True) left := by
  have read : ∀ field : FieldRef,
      ((ValueType.parse field.descriptor).toOption.bind ValueType.kind).isSome = true →
      (Insn.getStatic field).Fetches (fun _ _ => True) left := by
    intro field proper
    obtain ⟨kind, declared⟩ := Option.isSome_iff_exists.mp proper
    obtain ⟨type, parsed, same⟩ := Option.bind_eq_some_iff.mp declared
    exact ⟨type, kind, Outcome.toOption_eq_some.mp parsed, same, fun _ _ => trivial⟩
  unfold readsValue at reads
  split at reads
  · exact read _ reads
  · exact read _ reads
  · unfold Fetches
    split <;> simp_all

/-- As long as no field that is declared to be void is read, the operand stack of the innermost
invocation is as high as the frame found for its instruction, and no higher than its method
declares. -/
theorem Vm.stack_within_declared {vm : Vm} (accepted : vm.classes.Accepted) {method : MethodRef}
    {prepared : PreparedMethod} (found : vm.staticMethod method = .ok prepared)
    (arguments : List Value) (world : World) (steps : Nat)
    (reads : Machine.stepsPass (fun insn _ => insn.readsValue) vm.classes steps
      (Machine.enter prepared arguments []) world = true)
    {activation : Activation}
    (current : (Machine.advance vm.classes steps (Machine.enter prepared arguments [])
      world).1.current? = some activation) :
    ∃ hierarchy known frame, Verification.verifyMethod hierarchy activation.method.owner
        activation.method.method = .ok known ∧
      known.frame? activation.index = some frame ∧
      activation.stack.length = frame.stack.length ∧
      activation.stack.length ≤ activation.method.method.maxStack.toNat := by
  have checked := accepted.checked.methods prepared (staticMethod_held found)
  have begins : (Machine.enter prepared arguments []).Described fun _ _ => True := by
    refine Machine.enter_described Telling.heights checked ?_ trivial
    intro type typed count
    have each : ((Frame.arguments prepared.owner prepared.method type).map FrameValue.size).length =
        _ := congrArg List.length (Frame.arguments_each typed)
    rw [List.length_map, List.length_append, List.length_replicate, List.length_map] at each
    exact List.forall₂_of_length_eq_of_get (by omega) fun _ _ _ => trivial
  have described := Machine.advance_described Telling.heights accepted.checked
    (fun _ left reads => Insn.fetches_of_readsValue reads left) steps begins reads
  obtain ⟨checked, within⟩ := described.current current
  obtain ⟨hierarchy, known, verified⟩ := checked.verified
  obtain ⟨frame, here, describes⟩ :=
    within known ⟨hierarchy, Verification.verifyMethod_analyze verified⟩
  have height := describes.stack.length_eq
  exact ⟨hierarchy, known, frame, verified, here, height.symm,
    height ▸ Verification.verifyMethod_heights verified here⟩

end StackCoroutine
