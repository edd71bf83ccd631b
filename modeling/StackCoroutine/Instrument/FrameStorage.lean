import StackCoroutine.Instrument.Slots

/-!
Code that moves the values of a frame into arrays, one for each category, and back. Values are
numbered within their category, whatever slots they take: a long in slot 4 and an int in slot 6 are
both number 0. A container holds the arrays of one frame, first those of the locals and then those
of the operand stack.
-/

namespace StackCoroutine

/-- A list of instructions. -/
abbrev Code := List Insn

/-- A value with its place in the array of its category. -/
structure StoredValue where
  value : FrameValue
  kind : Kind
  index : Nat
  deriving DecidableEq, Repr

/-- The places of values that are listed last first; none for what holds no value. -/
def storedValues : List FrameValue → List (Option StoredValue)
  | [] => []
  | value :: earlier =>
      (value.kind.map fun kind => ⟨value, kind, countKind kind earlier⟩) :: storedValues earlier

/-- The places of locals with their slots. -/
def storedLocals (locals : List FrameValue) : List (StoredValue × UInt16) :=
  (storedValues locals.reverse).reverse.zipIdx.filterMap fun (stored, slot) =>
    stored.map fun stored => (stored, UInt16.ofNat slot)

/-- Pushes a stored value. A null is not read from its array. -/
def StoredValue.load (stored : StoredValue) (array : Variable) : Code :=
  match stored.value with
  | .null => [.constNull]
  | .reference name =>
      [array.load, .intConst (Int32.ofNat stored.index), .arrayLoad stored.kind] ++
        if name = Names.object then [] else [.checkCast name]
  | _ => [array.load, .intConst (Int32.ofNat stored.index), .arrayLoad stored.kind]

namespace SlotLayout

/-- Length of a container. -/
def containerSize : Int32 := 10

/-- The array variable of a category. Every category of the frames asked for has one. -/
def array (storage : PerKind (Option Variable)) (kind : Kind) : Variable :=
  (storage.get kind).getD ⟨0, .ref⟩

def stackArray (layout : SlotLayout) (kind : Kind) : Variable := array layout.stackStorage kind
def localsArray (layout : SlotLayout) (kind : Kind) : Variable := array layout.localsStorage kind

/-- The categories that occur. -/
def presentKinds (values : List FrameValue) : List Kind :=
  Kind.all.filter fun kind => 0 < countKind kind values

def allocate (arrayOf : Kind → Variable) (sizes : PerKind Nat) (values : List FrameValue) : Code :=
  (presentKinds values).flatMap fun kind =>
    [.intConst (Int32.ofNat (sizes.get kind)), .newArray kind.elementType, (arrayOf kind).store]

def allocateStack (layout : SlotLayout) (stack : List FrameValue) : Code :=
  allocate layout.stackArray layout.stackMax stack

def allocateLocals (layout : SlotLayout) (locals : List FrameValue) : Code :=
  allocate layout.localsArray layout.localsMax locals

/-- Moves a number of entries from the top of the stack into their arrays. -/
def saveStack (layout : SlotLayout) (stack : List FrameValue) (count : Nat) : Code :=
  ((storedValues stack).take count).flatMap fun
    | none => []
    | some stored =>
        [(layout.stackArray stored.kind).load, .swap, .intConst (Int32.ofNat stored.index), .swap,
          .arrayStore stored.kind]

/-- Pushes entries that are listed from the top, the lowest first. -/
def pushAll (layout : SlotLayout) (entries : List (Option StoredValue)) : Code :=
  entries.reverse.flatMap fun
    | none => []
    | some stored => stored.load (layout.stackArray stored.kind)

/-- Pushes the given number of topmost entries. -/
def loadTop (layout : SlotLayout) (stack : List FrameValue) (count : Nat) : Code :=
  layout.pushAll ((storedValues stack).take count)

/-- Pushes the entries below the given number of topmost ones. -/
def loadBelow (layout : SlotLayout) (stack : List FrameValue) (count : Nat) : Code :=
  layout.pushAll ((storedValues stack).drop count)

def saveLocals (layout : SlotLayout) (locals : List FrameValue) : Code :=
  (storedLocals locals).flatMap fun (stored, slot) =>
    [(layout.localsArray stored.kind).load, .intConst (Int32.ofNat stored.index),
      .load stored.kind slot, .arrayStore stored.kind]

def loadLocals (layout : SlotLayout) (locals : List FrameValue) : Code :=
  (storedLocals locals).flatMap fun (stored, slot) =>
    stored.load (layout.localsArray stored.kind) ++ [.store stored.kind slot]

/-- Place of a category among the arrays of locals or of the stack. -/
def place (kind : Kind) : Nat := Kind.all.idxOf kind

/-- The elements of the container in use, with the categories and variables of their arrays. -/
def elements (layout : SlotLayout) (locals stack : List FrameValue) :
    List (Int32 × Kind × Variable) :=
  (presentKinds locals).map (fun kind =>
    (Int32.ofNat (place kind), kind, layout.localsArray kind)) ++
  (presentKinds stack).map (fun kind =>
    (Int32.ofNat (place kind + Kind.all.length), kind, layout.stackArray kind))

/-- Puts the arrays of a frame into a new container. -/
def pack (layout : SlotLayout) (locals stack : List FrameValue) : Code :=
  [.intConst containerSize, .newArray (.object Names.object), layout.container.store] ++
    (layout.elements locals stack).flatMap fun (element, _, array) =>
      [layout.container.load, .intConst element, array.load, .arrayStore .ref]

/-- Takes the arrays of a frame out of the container. -/
def unpack (layout : SlotLayout) (locals stack : List FrameValue) : Code :=
  (layout.elements locals stack).flatMap fun (element, kind, array) =>
    [layout.container.load, .intConst element, .arrayLoad .ref,
      .checkCast kind.arrayType.internalName, array.store]

end SlotLayout

end StackCoroutine
