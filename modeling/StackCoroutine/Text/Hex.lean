/-!
Hexadecimal text: numbers in lower case without padding, and bytes as digit pairs.
-/

namespace StackCoroutine.Hex

def digit (value : Nat) : Char :=
  if value < 10 then Char.ofNat (48 + value) else Char.ofNat (87 + value)

def digits (value : Nat) : List Char := (Nat.toDigits 16 value)

/-- At least `width` digits, filled up with zeros on the left. -/
def padded (width value : Nat) : String :=
  let written := digits value
  String.ofList (List.replicate (width - written.length) '0' ++ written)

/-- The number after the marker `0x`. -/
def marked (value : Nat) : String := "0x" ++ String.ofList (digits value)

def ofByte (byte : UInt8) : List Char := [digit (byte.toNat / 16), digit (byte.toNat % 16)]

def ofBytes (bytes : List UInt8) : String := String.ofList (bytes.flatMap ofByte)

def digitValue? (c : Char) : Option Nat :=
  if '0' ≤ c ∧ c ≤ '9' then some (c.toNat - 48)
  else if 'a' ≤ c ∧ c ≤ 'f' then some (c.toNat - 87)
  else if 'A' ≤ c ∧ c ≤ 'F' then some (c.toNat - 55)
  else none

def bytesOfChars? : List Char → Option (List UInt8)
  | [] => some []
  | [_] => none
  | high :: low :: rest => do
      let h ← digitValue? high
      let l ← digitValue? low
      return UInt8.ofNat (h * 16 + l) :: (← bytesOfChars? rest)

/-- The bytes of a text of digit pairs. -/
def toBytes? (text : String) : Option (List UInt8) := bytesOfChars? text.toList

end StackCoroutine.Hex
