/-!
Bytes of numbers and text. Numbers are written with the lowest byte first; a text is preceded by the
number of its UTF-8 bytes.
-/

namespace StackCoroutine.Bytes

def ofUInt16 (value : UInt16) : List UInt8 := [value.toUInt8, (value >>> 8).toUInt8]

def ofUInt32 (value : UInt32) : List UInt8 :=
  [value.toUInt8, (value >>> 8).toUInt8, (value >>> 16).toUInt8, (value >>> 24).toUInt8]

def ofUInt64 (value : UInt64) : List UInt8 :=
  [value.toUInt8, (value >>> 8).toUInt8, (value >>> 16).toUInt8, (value >>> 24).toUInt8,
    (value >>> 32).toUInt8, (value >>> 40).toUInt8, (value >>> 48).toUInt8, (value >>> 56).toUInt8]

def ofInt32 (value : Int32) : List UInt8 := ofUInt32 value.toUInt32

def ofInt64 (value : Int64) : List UInt8 := ofUInt64 value.toUInt64

/-- The number of elements of a list that follows. -/
def ofCount (count : Nat) : List UInt8 := ofUInt32 (UInt32.ofNat count)

def ofText (text : String) : List UInt8 :=
  let bytes := text.toUTF8.toList
  ofCount bytes.length ++ bytes

/-- A presence byte, then the text if there is one. -/
def ofOptionalText : Option String → List UInt8
  | none => [0]
  | some text => 1 :: ofText text

/-- A count, then the elements. -/
def ofList (encode : α → List UInt8) (items : List α) : List UInt8 :=
  ofCount items.length ++ items.flatMap encode

end StackCoroutine.Bytes
