import StackCoroutine.Proofs.Code.Encoding

/-!
The byte form of a list of instructions is one to one. Every instruction takes a byte at least, so
the bound on the number of instructions is never what ends their decoding: it ends with the bytes.
Decoding an instruction takes its bytes whatever follows them, so that none begins another.
-/

namespace StackCoroutine

/-- Every instruction of the list fits its byte form. -/
def CodeFits (code : List Insn) : Prop := ∀ insn ∈ code, insn.Fits

instance : DecidablePred CodeFits := fun code =>
  inferInstanceAs (Decidable (∀ insn ∈ code, insn.Fits))

theorem encodeCode_cons (insn : Insn) (code : List Insn) :
    encodeCode (insn :: code) = insn.encode ++ encodeCode code := List.flatMap_cons

theorem Insn.encode_length (insn : Insn) : insn.encode.length = insn.operands.length + 1 := rfl

theorem length_le_encodeCode (code : List Insn) : code.length ≤ (encodeCode code).length := by
  induction code with
  | nil => exact Nat.le_refl 0
  | cons insn rest ih =>
      rw [encodeCode_cons, List.length_append, insn.encode_length, List.length_cons]
      omega

namespace Decoder

theorem insnsWithin_nil (bound offset : Nat) :
    (insnsWithin bound).run ⟨[], offset⟩ = (.ok [], ⟨[], offset⟩) := by
  cases bound <;> rfl

/-- While bytes are left the next instruction is read from them. -/
theorem insnsWithin_succ (bound : Nat) {cursor : Cursor} (more : cursor.rest ≠ []) :
    (insnsWithin (bound + 1)).run cursor =
      (insn >>= fun first => do return first :: (← insnsWithin bound)).run cursor := by
  rw [insnsWithin, run_get_bind, if_neg (by simpa using more)]

/-- Instructions that fit are read from their bytes, where nothing follows these. -/
theorem insnsWithin_encodeCode {code : List Insn} (fits : CodeFits code) {bound : Nat}
    (enough : code.length ≤ bound) (offset : Nat) :
    (insnsWithin bound).run ⟨encodeCode code, offset⟩ =
      (.ok code, ⟨[], offset + (encodeCode code).length⟩) := by
  induction code generalizing bound offset with
  | nil => exact insnsWithin_nil bound offset
  | cons first rest ih =>
      obtain ⟨bound, rfl⟩ : ∃ fewer, bound = fewer + 1 :=
        ⟨bound - 1, by rw [List.length_cons] at enough; omega⟩
      have later := ih (fun insn member => fits insn (List.mem_cons_of_mem _ member))
        (Nat.le_of_succ_le_succ enough) (offset + first.encode.length)
      rw [insnsWithin_succ bound (by simp [encodeCode_cons, Insn.encode]), run_bind,
        encodeCode_cons, insn_reads (fits first List.mem_cons_self)]
      simp only [run_bind, later, run_pure, List.length_append, Nat.add_assoc]

/-- Decoding finds instructions that fit, and takes their bytes. -/
theorem insnsWithin_spells (bound : Nat) : Spells (insnsWithin bound) encodeCode CodeFits := by
  induction bound with
  | zero => exact Finds.pure ⟨by simp [CodeFits], rfl⟩
  | succ bound ih =>
      have here : Spells (insn >>= fun first => do return first :: (← insnsWithin bound))
          encodeCode CodeFits := by
        refine insn_spells.bind fun taken first found => ih.bind fun more rest founds =>
          Finds.pure ⟨?_, ?_⟩
        · exact List.forall_mem_cons.mpr ⟨found.1, founds.1⟩
        · rw [found.2, founds.2, List.append_nil, encodeCode_cons]
      intro cursor code after done
      obtain ⟨bytes, offset⟩ := cursor
      cases bytes with
      | nil =>
          rw [insnsWithin_nil] at done
          cases done
          exact ⟨[], rfl, rfl, by simp [CodeFits], rfl⟩
      | cons byte rest =>
          rw [insnsWithin_succ bound (by simp)] at done
          exact here _ _ _ done

/-- A bound of one instruction a byte leaves no byte unread. -/
theorem insnsWithin_ends {bound : Nat} {cursor after : Cursor} {code : List Insn}
    (done : (insnsWithin bound).run cursor = (.ok code, after))
    (enough : cursor.rest.length ≤ bound) : after.rest = [] := by
  induction bound generalizing cursor code after with
  | zero =>
      obtain ⟨rfl, rfl⟩ : [] = code ∧ cursor = after := by simpa [insnsWithin, run_pure] using done
      exact List.length_eq_zero_iff.mp (Nat.le_zero.mp enough)
  | succ bound ih =>
      obtain ⟨bytes, offset⟩ := cursor
      cases bytes with
      | nil =>
          rw [insnsWithin_nil] at done
          cases done
          rfl
      | cons byte rest =>
          rw [insnsWithin_succ bound (by simp), run_bind] at done
          rcases ran : insn.run ⟨byte :: rest, offset⟩ with ⟨cause | first, middle⟩
          · simp [ran] at done
          · simp only [ran, run_bind] at done
            rcases later : (insnsWithin bound).run middle with ⟨cause | others, last⟩
            · simp [later] at done
            · obtain ⟨taken, spelled, -, -, rfl⟩ := insn_spells _ _ _ ran
              obtain ⟨-, rfl⟩ : first :: others = code ∧ last = after := by
                simpa [later, run_pure] using done
              have shorter : rest.length + 1 = first.encode.length + middle.rest.length := by
                simpa using congrArg List.length spelled
              rw [first.encode_length] at shorter
              exact ih later (by simp at enough; omega)

end Decoder

/-- Instructions that fit are read back from the bytes written for them. -/
theorem decodeCode_encodeCode {code : List Insn} (fits : CodeFits code) :
    decodeCode (encodeCode code) = .ok code :=
  congrArg Prod.fst (Decoder.insnsWithin_encodeCode fits (length_le_encodeCode code) 0)

/-- Bytes that are read as instructions are the ones written for these. -/
theorem encodeCode_of_decodeCode {bytes : List UInt8} {code : List Insn}
    (read : decodeCode bytes = .ok code) : CodeFits code ∧ encodeCode code = bytes := by
  have done : (Decoder.insnsWithin bytes.length).run (.start bytes) = (.ok code, _) :=
    Prod.ext read rfl
  obtain ⟨taken, whole, -, fits, rfl⟩ := Decoder.insnsWithin_spells _ _ _ _ done
  have ended := Decoder.insnsWithin_ends done (Nat.le_refl _)
  rw [ended, List.append_nil] at whole
  exact ⟨fits, whole.symm⟩

/-- Instructions of which the bytes of one begin those of the other are the same. -/
theorem Insn.eq_of_encode_prefix {insn other : Insn} (fits : insn.Fits) (fits' : other.Fits)
    (begins : insn.encode <+: other.encode) : insn = other := by
  obtain ⟨rest, whole⟩ := begins
  have longer := Decoder.insn_reads fits rest 0
  have alone := Decoder.insn_reads fits' [] 0
  rw [List.append_nil, ← whole, longer] at alone
  simpa using congrArg Prod.fst alone

/-- The byte form of instructions is one to one: instructions that fit are read back from their
bytes, bytes that can be read are written again from what was read, no two byte strings are read as
the same instructions, and no bytes of an instruction begin those of another. -/
theorem code_form_bijective :
    (∀ code, CodeFits code → decodeCode (encodeCode code) = .ok code) ∧
    (∀ bytes code, decodeCode bytes = .ok code → CodeFits code ∧ encodeCode code = bytes) ∧
    (∀ bytes other code, decodeCode bytes = .ok code → decodeCode other = .ok code →
      bytes = other) ∧
    ∀ insn other : Insn, insn.Fits → other.Fits → insn.encode <+: other.encode → insn = other := by
  refine ⟨fun code => decodeCode_encodeCode, fun bytes code => encodeCode_of_decodeCode, ?_,
    fun insn other => Insn.eq_of_encode_prefix⟩
  intro bytes other code read read'
  exact (encodeCode_of_decodeCode read).2.symm.trans (encodeCode_of_decodeCode read').2

/-- Instructions with every form of operand, a float that is not a number among them. -/
def mixedCode : List Insn :=
  [.label ⟨7⟩, .floatConst ⟨0x7FC00001⟩, .textConst "grüezi", .load .ref 3, .increment 2 (-1),
    .convert .int .double, .tableSwitch (-1) ⟨7⟩ [⟨7⟩, ⟨8⟩], .newArray (.array (.object "demo/C")),
    .invoke .virtual ⟨"demo/C", "run", "(I)V"⟩, .return none, .return (some .ref)]

theorem code_form_bijective_mixed :
    CodeFits mixedCode ∧ decodeCode (encodeCode mixedCode) = .ok mixedCode ∧
      (∀ bytes, decodeCode bytes = .ok mixedCode → bytes = encodeCode mixedCode) ∧
      ¬ (Insn.return none).encode <+: (Insn.return (some .ref)).encode := by
  have fits : CodeFits mixedCode := by decide
  have read := code_form_bijective.1 mixedCode fits
  refine ⟨(code_form_bijective.2.1 _ _ read).1, read, fun bytes read' => ?_, fun begins => ?_⟩
  · exact code_form_bijective.2.2.1 bytes _ mixedCode read' read
  · cases code_form_bijective.2.2.2 (.return none) (.return (some .ref)) trivial trivial begins

end StackCoroutine
