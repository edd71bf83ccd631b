import StackCoroutine.Proofs.Class.Encoding

/-!
What decoders can answer at a written form. `Only` says that a decoder which succeeds on given bytes,
whatever follows them, answers a given value. Every class whose lengths can be written is the only
answer at its own form; it may be refused, for an element type that no descriptor denotes, but is
never taken for another.
-/

namespace StackCoroutine

open Bytes (TextFits ListFits)

namespace ValueType

end ValueType

namespace Insn

/-- The lengths in the form of the instruction can be written. -/
def Sized : Insn → Prop
  | .newArray element => TextFits element.descriptor
  | insn => insn.Fits

end Insn

def Method.Sized (method : Method) : Prop :=
  TextFits method.name ∧ TextFits method.descriptor ∧ ListFits Insn.Sized method.code ∧
    ListFits TryBlock.Fits method.tryBlocks

/-- Texts and lists of the class are shorter than `2 ^ 32`. -/
def ClassFile.Sized (file : ClassFile) : Prop :=
  TextFits file.name ∧ (∀ name ∈ file.superName, TextFits name) ∧
    ListFits TextFits file.interfaces ∧ ListFits Field.Fits file.fields ∧
    ListFits Method.Sized file.methods

namespace Decoder

variable {α β : Type}

/-- If the decoder succeeds on bytes that start with these, it took these and answered the value. -/
def Only (decoder : Decoder α) (taken : List UInt8) (value : α) : Prop :=
  ∀ rest offset found after, decoder.run ⟨taken ++ rest, offset⟩ = (.ok found, after) →
    found = value ∧ after = ⟨rest, offset + taken.length⟩

theorem Reads.only {decoder : Decoder α} {taken : List UInt8} {value : α}
    (reads : Reads decoder taken value) : Only decoder taken value := by
  intro rest offset found after done
  rw [reads rest offset] at done
  cases done
  exact ⟨rfl, rfl⟩

namespace Only

theorem throw (cause : DecodeError) (taken : List UInt8) (value : α) :
    Only (throw cause) taken value := by
  intro rest offset found after done
  simp [run_throw] at done

theorem bind {decoder : Decoder α} {next : α → Decoder β} {first second : List UInt8} {value : α}
    {last : β} (here : Only decoder first value) (later : Only (next value) second last) :
    Only (decoder >>= next) (first ++ second) last := by
  intro rest offset found after done
  rw [run_bind, List.append_assoc] at done
  rcases ran : decoder.run ⟨first ++ (second ++ rest), offset⟩ with ⟨cause | middle, behind⟩
  · simp [ran] at done
  · rw [ran] at done
    obtain ⟨rfl, rfl⟩ := here _ _ _ _ ran
    obtain ⟨rfl, rfl⟩ := later _ _ _ _ done
    exact ⟨rfl, by rw [List.length_append, Nat.add_assoc]⟩

theorem last {decoder : Decoder α} {next : α → Decoder β} {taken : List UInt8} {value : α}
    {final : β} (here : Only decoder taken value) (later : Only (next value) [] final) :
    Only (decoder >>= next) taken final := by
  simpa only [List.append_nil] using here.bind later

theorem map {decoder : Decoder α} {taken : List UInt8} {value : α} (here : Only decoder taken value)
    (place : α → β) : Only (do return place (← decoder)) taken (place value) :=
  here.last (Reads.pure _).only

theorem after_offset {next : Nat → Decoder α} {taken : List UInt8} {value : α}
    (later : ∀ start, Only (next start) taken value) : Only (offset >>= next) taken value :=
  fun rest start found after done => later start rest start found after done

end Only

end Decoder

namespace ClassFile

end ClassFile

end StackCoroutine
