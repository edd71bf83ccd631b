import StackCoroutine.Checksum

/-!
What the checksum notices. Every step of the register is one to one, since the bit shifted out comes
back as the highest bit of the polynomial; so two registers that differ once differ after any
further bytes, and a single changed byte always changes the checksum.
-/

namespace StackCoroutine.Checksum

theorem toNat_shifted (number : UInt32) : (number >>> 1).toNat = number.toNat / 2 := by
  rw [UInt32.toNat_shiftRight]
  exact Nat.shiftRight_eq_div_pow _ 1

/-- The polynomial has the highest bit, which no number that was shifted down has. -/
theorem shifted_xor_polynomial_ne (first second : UInt32) :
    (first >>> 1) ^^^ polynomial ≠ second >>> 1 := by
  intro same
  have high : (first >>> 1) ^^^ (second >>> 1) = polynomial := by
    rw [← same, ← UInt32.xor_assoc, UInt32.xor_self, UInt32.zero_xor]
  have low : ∀ number : UInt32, (number >>> 1).toNat < 2 ^ 31 := by
    intro number
    have bound := number.toNat_lt
    rw [toNat_shifted]
    omega
  have small := Nat.xor_lt_two_pow (low first) (low second)
  rw [← UInt32.toNat_xor, high] at small
  exact absurd small (by decide)

/-- A number is told by its lowest bit and the others. -/
theorem eq_of_shifted {first second : UInt32} (shifted : first >>> 1 = second >>> 1)
    (lowest : first &&& 1 = 1 ↔ second &&& 1 = 1) : first = second := by
  have halves := congrArg UInt32.toNat shifted
  rw [toNat_shifted, toNat_shifted] at halves
  have lowBit : ∀ number : UInt32, number &&& 1 = 1 ↔ number.toNat % 2 = 1 := by
    intro number
    rw [← UInt32.toNat_inj, UInt32.toNat_and]
    exact Nat.and_one_is_mod number.toNat ▸ Iff.rfl
  rw [lowBit, lowBit] at lowest
  exact UInt32.toNat_inj.mp (by omega)

theorem bitStep_injective {first second : UInt32} (same : bitStep first = bitStep second) :
    first = second := by
  unfold bitStep at same
  -- Which of the two shift a bit out: if only one does, only its result has the highest bit.
  split at same <;> split at same
  next odd odd' => exact eq_of_shifted ((UInt32.xor_left_inj _).mp same) (by simp [odd, odd'])
  next => exact absurd same (shifted_xor_polynomial_ne _ _)
  next => exact absurd same.symm (shifted_xor_polynomial_ne _ _)
  next even even' => exact eq_of_shifted same (by simp [even, even'])

theorem bitSteps_injective (steps : Nat) {first second : UInt32}
    (same : bitSteps steps first = bitSteps steps second) : first = second := by
  induction steps generalizing first second with
  | zero => exact same
  | succ steps ih => exact bitStep_injective (ih same)

/-- A step loses nothing of the register. -/
theorem byteStep_injective (byte : UInt8) {first second : UInt32}
    (same : byteStep first byte = byteStep second byte) : first = second :=
  (UInt32.xor_left_inj _).mp (bitSteps_injective 8 same)

/-- A step tells any two bytes apart. -/
theorem byteStep_byte {register : UInt32} {byte other : UInt8}
    (same : byteStep register byte = byteStep register other) : byte = other :=
  UInt8.toUInt32_inj.mp ((UInt32.xor_right_inj _).mp (bitSteps_injective 8 same))

/-- Registers that differ still do after any bytes. -/
theorem update_injective (bytes : List UInt8) {first second : UInt32}
    (same : update first bytes = update second bytes) : first = second := by
  induction bytes generalizing first second with
  | nil => exact same
  | cons byte rest ih => exact byteStep_injective byte (ih same)

/-- Another byte in one place gives another checksum. -/
theorem ofBytes_set_ne {bytes : List UInt8} {place : Nat} {byte : UInt8}
    (changed : bytes.set place byte ≠ bytes) :
    ofBytes (bytes.set place byte) ≠ ofBytes bytes := by
  intro same
  have inside : place < bytes.length :=
    Nat.lt_of_not_le fun outside => changed (List.set_eq_of_length_le outside)
  have split : bytes.take place ++ bytes[place] :: bytes.drop (place + 1) = bytes := by
    rw [List.getElem_cons_drop, List.take_append_drop]
  have split' : bytes.set place byte = bytes.take place ++ byte :: bytes.drop (place + 1) := by
    rw [List.set_eq_take_append_cons_drop, if_pos inside]
  -- Both lists lead to one register before the place; behind it a difference would stay.
  have updated : update 0xFFFFFFFF (bytes.take place ++ byte :: bytes.drop (place + 1)) =
      update 0xFFFFFFFF (bytes.take place ++ bytes[place] :: bytes.drop (place + 1)) := by
    rw [← split', split]
    exact (UInt32.xor_left_inj _).mp same
  simp only [update, List.foldl_append, List.foldl_cons] at updated
  have equal : byte = bytes[place] := byteStep_byte (update_injective _ updated)
  exact changed (by rw [equal, List.set_getElem_self])

/-- The check value of the standard. -/
example : ofBytes "123456789".toUTF8.toList = 0xCBF43926 := by decide +kernel

end StackCoroutine.Checksum
