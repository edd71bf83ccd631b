import Mathlib.Algebra.Ring.Nat
import StackCoroutine.Bytes.Decoder

/-!
Numbers and texts as bytes. The bytes of a number spell it, and among the lists of their length no
others do; the bytes of a text are its only form.
-/

namespace StackCoroutine.Bytes

theorem littleEndian_ofUInt16 (value : UInt16) :
    Decoder.littleEndian (ofUInt16 value) = value.toNat := by
  have small := value.toNat_lt
  simp [ofUInt16, Decoder.littleEndian, Nat.shiftRight_eq_div_pow]
  omega

theorem littleEndian_ofUInt32 (value : UInt32) :
    Decoder.littleEndian (ofUInt32 value) = value.toNat := by
  have small := value.toNat_lt
  simp [ofUInt32, Decoder.littleEndian, Nat.shiftRight_eq_div_pow]
  omega

theorem littleEndian_ofUInt64 (value : UInt64) :
    Decoder.littleEndian (ofUInt64 value) = value.toNat := by
  have small := value.toNat_lt
  simp [ofUInt64, Decoder.littleEndian, Nat.shiftRight_eq_div_pow]
  omega

theorem littleEndian_lt (bytes : List UInt8) :
    Decoder.littleEndian bytes < 256 ^ bytes.length := by
  induction bytes with
  | nil => simp [Decoder.littleEndian]
  | cons byte rest ih =>
      have small := byte.toNat_lt
      simp only [Decoder.littleEndian, List.length_cons, Nat.pow_succ]
      omega

/-- Among lists of one length, a number has one spelling. -/
theorem littleEndian_inj {bytes others : List UInt8} (lengths : bytes.length = others.length)
    (same : Decoder.littleEndian bytes = Decoder.littleEndian others) : bytes = others := by
  induction bytes generalizing others with
  | nil => exact (List.length_eq_zero_iff.mp lengths.symm).symm
  | cons byte rest ih =>
      obtain _ | ⟨other, rest'⟩ := others
      · simp at lengths
      have small := byte.toNat_lt
      have small' := other.toNat_lt
      simp only [Decoder.littleEndian] at same
      have first : byte = other := UInt8.toNat_inj.mp (by omega)
      have later : rest = rest' := ih (by simpa using lengths) (by omega)
      rw [first, later]

theorem ofUInt16_littleEndian {bytes : List UInt8} (two : bytes.length = 2) :
    ofUInt16 (UInt16.ofNat (Decoder.littleEndian bytes)) = bytes := by
  apply littleEndian_inj (by simp [ofUInt16, two])
  have small := littleEndian_lt bytes
  rw [littleEndian_ofUInt16, UInt16.toNat_ofNat_of_lt' (by simpa [two] using small)]

theorem ofUInt32_littleEndian {bytes : List UInt8} (four : bytes.length = 4) :
    ofUInt32 (UInt32.ofNat (Decoder.littleEndian bytes)) = bytes := by
  apply littleEndian_inj (by simp [ofUInt32, four])
  have small := littleEndian_lt bytes
  rw [littleEndian_ofUInt32, UInt32.toNat_ofNat_of_lt' (by simpa [four] using small)]

theorem ofUInt64_littleEndian {bytes : List UInt8} (eight : bytes.length = 8) :
    ofUInt64 (UInt64.ofNat (Decoder.littleEndian bytes)) = bytes := by
  apply littleEndian_inj (by simp [ofUInt64, eight])
  have small := littleEndian_lt bytes
  rw [littleEndian_ofUInt64, UInt64.toNat_ofNat_of_lt' (by simpa [eight] using small)]

theorem toList_loop (bytes : ByteArray) (position : Nat) (found : List UInt8) :
    ByteArray.toList.loop bytes position found =
      found.reverse ++ bytes.data.toList.drop position := by
  fun_induction ByteArray.toList.loop bytes position found with
  | case1 position found inside ih =>
      have here : position < bytes.data.toList.length := inside
      have read : bytes.get! position = bytes.data.toList[position] := by
        simp [ByteArray.get!, getElem!_pos, inside]
      rw [ih, List.drop_eq_getElem_cons here, List.reverse_cons, List.append_assoc]
      simp [read]
  | case2 position found outside =>
      have none : bytes.data.toList.length ≤ position := Nat.le_of_not_lt outside
      rw [List.drop_eq_nil_of_le none, List.append_nil]

theorem toList_eq (bytes : ByteArray) : bytes.toList = bytes.data.toList := by
  simp [ByteArray.toList, toList_loop]

theorem utf8?_toUTF8 (text : String) : Decoder.utf8? text.toUTF8.toList = some text := by
  have whole : text.toUTF8.toList.toByteArray = text.toUTF8 :=
    ByteArray.ext (by simp [toList_eq])
  unfold Decoder.utf8? String.fromUTF8?
  rw [whole]
  exact dif_pos text.isValidUTF8

theorem toUTF8_utf8? {bytes : List UInt8} {text : String}
    (spelled : Decoder.utf8? bytes = some text) : text.toUTF8.toList = bytes := by
  simp only [Decoder.utf8?, String.fromUTF8?, Option.dite_none_right_eq_some,
    Option.some.injEq] at spelled
  obtain ⟨valid, rfl⟩ := spelled
  simp [toList_eq, String.fromUTF8]

end StackCoroutine.Bytes
