import StackCoroutine.Coroutine.SavedFrame
import StackCoroutine.Machine.Value

/-!
The heap: an arena of objects that only grows, so that references kept in saved frames stay valid,
with a table of the texts that stand for constants.
-/

namespace StackCoroutine

/-- Named values, each name once. -/
abbrev Slots := List (String × Value)

namespace Slots

def get? (slots : Slots) (name : String) : Option Value := slots.lookup name

def contains (slots : Slots) (name : String) : Bool := (slots.get? name).isSome

/-- Replaces the value of a name in its place, or adds the name at the end. -/
def insert : Slots → String → Value → Slots
  | [], name, value => [(name, value)]
  | (other, held) :: rest, name, value =>
      if other = name then (name, value) :: rest else (other, held) :: insert rest name value

def insertNew (slots : Slots) (name : String) (value : Value) : Slots :=
  if slots.contains name then slots else slots.insert name value

end Slots

inductive HeapObject where
  | instance (className : String) (fields : Slots)
  | text (content : String)
  | array (element : ValueType) (values : Array Value)
  /-- A saved frame, with its place in the chain once it has been handed out. -/
  | savedFrame (frame : SavedFrame Value) (position : Option Nat)
  | lockState (state : LockState Value)
  deriving DecidableEq, Repr, Inhabited

def HeapObject.className : HeapObject → String
  | .instance className _ => className
  | .text _ => Names.text
  | .array element _ => (ValueType.array element).internalName
  | .savedFrame .. => Protocol.savedFrameClass
  | .lockState _ => Protocol.lockStateClass

structure Heap where
  objects : Array HeapObject
  /-- Objects of the text constants. -/
  interned : List (String × ObjectRef)
  deriving DecidableEq, Repr, Inhabited

namespace Heap

def empty : Heap := ⟨#[], []⟩

def size (heap : Heap) : Nat := heap.objects.size

def alloc (heap : Heap) (object : HeapObject) : ObjectRef × Heap :=
  (⟨UInt32.ofNat heap.size⟩, { heap with objects := heap.objects.push object })

def get (heap : Heap) (object : ObjectRef) : Except TypeFault HeapObject :=
  match heap.objects[object.index.toNat]? with
  | some found => .ok found
  | none => .error (.dangling object)

/-- Changes the object in place; nothing happens to an object that is not there. -/
def update (heap : Heap) (object : ObjectRef) (change : HeapObject → HeapObject) : Heap :=
  { heap with objects := heap.objects.modify object.index.toNat change }

def replace (heap : Heap) (object : ObjectRef) (content : HeapObject) : Except TypeFault Heap :=
  match heap.get object with
  | .ok _ => .ok (heap.update object fun _ => content)
  | .error fault => .error fault

/-- The object of a text constant, made when first asked for. -/
def intern (heap : Heap) (content : String) : ObjectRef × Heap :=
  match heap.interned.lookup content with
  | some object => (object, heap)
  | none =>
      let (object, grown) := heap.alloc (.text content)
      (object, { grown with interned := grown.interned ++ [(content, object)] })

def newText (heap : Heap) (content : String) : Value × Heap :=
  let (object, grown) := heap.alloc (.text content)
  (.ref object, grown)

def text (heap : Heap) (object : ObjectRef) : Except TypeFault String := do
  match ← heap.get object with
  | .text content => return content
  | other => throw (.notText other.className)

/-- An array of the initial value of its element type. -/
def newArray (heap : Heap) (element : ValueType) (length : Nat) : ObjectRef × Heap :=
  heap.alloc (.array element (Array.replicate length (Value.ofType element)))

def array (heap : Heap) (object : ObjectRef) : Except TypeFault (Array Value) := do
  match ← heap.get object with
  | .array _ values => return values
  | other => throw (.notArray other.className)

def setElement (heap : Heap) (object : ObjectRef) (index : Nat) (value : Value) : Heap :=
  heap.update object fun
    | .array element values => .array element (values.setIfInBounds index value)
    | other => other

def className (heap : Heap) (object : ObjectRef) : Except TypeFault String := do
  return (← heap.get object).className

end Heap

end StackCoroutine
