/-!
The cyclic redundancy check with the reversed polynomial `0xEDB88320`, one bit of the register after
another.
-/

namespace StackCoroutine.Checksum

def polynomial : UInt32 := 0xEDB88320

def bitStep (register : UInt32) : UInt32 :=
  if register &&& 1 = 1 then (register >>> 1) ^^^ polynomial else register >>> 1

def bitSteps : Nat → UInt32 → UInt32
  | 0, register => register
  | steps + 1, register => bitSteps steps (bitStep register)

def byteStep (register : UInt32) (byte : UInt8) : UInt32 :=
  bitSteps 8 (register ^^^ byte.toUInt32)

def update (register : UInt32) (bytes : List UInt8) : UInt32 := bytes.foldl byteStep register

def ofBytes (bytes : List UInt8) : UInt32 := update 0xFFFFFFFF bytes ^^^ 0xFFFFFFFF

end StackCoroutine.Checksum
