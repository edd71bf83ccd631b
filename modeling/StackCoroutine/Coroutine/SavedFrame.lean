import StackCoroutine.Coroutine.Mode
import StackCoroutine.Coroutine.Protocol

/-!
A suspended frame: the method it belongs to, the point it stopped at and its packed contents. A
class carries one field for every point of its methods, so a frame saved under other classes is
noticed.
-/

namespace StackCoroutine

structure SavedFrame (V : Type) where
  className : String
  methodId : Int32
  point : Int32
  data : V
  lockState : Option V
  deriving DecidableEq, Repr, Inhabited

/-- Whether a class declares a field, or nothing if there is no such class. -/
abbrev FieldLookup := String → String → Option Bool

namespace SavedFrame

/-- A number with the letter `N` for its sign. -/
def signedName (value : Int32) : String :=
  (if value < 0 then "N" else "") ++ toString value.toInt.natAbs

/-- Name of the field that stands for a continuation point of a method. -/
def pointFieldName (methodId point : Int32) : String :=
  Protocol.pointField ++ signedName methodId ++ "_" ++ signedName point

def fieldName (frame : SavedFrame V) : String := pointFieldName frame.methodId frame.point

/-- The class has the continuation point. -/
def pointExists (declares : FieldLookup) (className : String) (methodId point : Int32) :
    Except ProtocolError Bool :=
  if point < 0 then .error (.invalidContinuationPoint className point)
  else match declares className (pointFieldName methodId point) with
    | some found => .ok found
    | none => .error (.classNotFound className)

/-- The classes still have the point the frame stopped at. -/
def isValid (declares : FieldLookup) (frame : SavedFrame V) : Except ProtocolError Bool :=
  pointExists declares frame.className frame.methodId frame.point

def optionAgrees (same : V → V → Bool) : Option V → Option V → Bool
  | none, none => true
  | some a, some b => same a b
  | _, _ => false

/-- Equal up to a given equality of the values. -/
def agrees (same : V → V → Bool) (frame other : SavedFrame V) : Bool :=
  frame.className == other.className && frame.methodId == other.methodId &&
    frame.point == other.point && same frame.data other.data &&
    optionAgrees same frame.lockState other.lockState

end SavedFrame

end StackCoroutine
