import StackCoroutine.Names
import StackCoroutine.Text.Quoted

/-!
Declared types and the categories their values are stored in. A type is written as a descriptor;
`ValueType.parse` accepts exactly what `ValueType.descriptor` writes for types without arrays of
void and without a semicolon in a class name.
-/

namespace StackCoroutine

/-- Storage category of a value. Booleans, bytes, characters and shorts are stored as integers. -/
inductive Kind where
  | int
  | long
  | float
  | double
  | ref
  deriving DecidableEq, Repr, Inhabited

inductive ValueType where
  | void
  | boolean
  | byte
  | char
  | short
  | int
  | long
  | float
  | double
  | object (name : String)
  | array (element : ValueType)
  deriving DecidableEq, Repr, Inhabited

inductive DescriptorError where
  | unexpectedEnd (descriptor : String)
  | invalidChar (char : Char) (descriptor : String)
  | trailing (descriptor : String)
  | malformedMethod (descriptor : String)
  | misplacedVoid (descriptor : String)
  deriving DecidableEq, Repr

def DescriptorError.message : DescriptorError → String
  | .unexpectedEnd descriptor => "Unexpected end of descriptor " ++ Text.quote descriptor
  | .invalidChar char descriptor =>
      "Invalid type character " ++ Text.quoteChar char ++ " in descriptor " ++ Text.quote descriptor
  | .trailing descriptor => "Trailing characters in descriptor " ++ Text.quote descriptor
  | .malformedMethod descriptor => "Malformed method descriptor " ++ Text.quote descriptor
  | .misplacedVoid descriptor =>
      "Void is not a valid parameter or array element in " ++ Text.quote descriptor

namespace Kind

/-- Every category, in the order frames are stored. -/
def all : List Kind := [.int, .float, .long, .double, .ref]

/-- Local slots of one value. -/
def size : Kind → Nat
  | .long | .double => 2
  | .int | .float | .ref => 1

def elementType : Kind → ValueType
  | .int => .int
  | .long => .long
  | .float => .float
  | .double => .double
  | .ref => .object Names.object

def arrayType (kind : Kind) : ValueType := .array kind.elementType

def name : Kind → String
  | .int => "int"
  | .long => "long"
  | .float => "float"
  | .double => "double"
  | .ref => "ref"

theorem size_pos (kind : Kind) : 0 < kind.size := by
  cases kind <;> decide

end Kind

namespace ValueType

def descriptorChars : ValueType → List Char
  | .void => ['V']
  | .boolean => ['Z']
  | .byte => ['B']
  | .char => ['C']
  | .short => ['S']
  | .int => ['I']
  | .long => ['J']
  | .float => ['F']
  | .double => ['D']
  | .object name => 'L' :: name.toList ++ [';']
  | .array element => '[' :: element.descriptorChars

def descriptor (type : ValueType) : String := String.ofList type.descriptorChars

/-- Name of a reference type in instructions and frames: plain for a class, a descriptor for an
array. -/
def internalName : ValueType → String
  | .object name => name
  | type => type.descriptor

/-- Storage category, `none` for void. -/
def kind : ValueType → Option Kind
  | .void => none
  | .boolean | .byte | .char | .short | .int => some .int
  | .long => some .long
  | .float => some .float
  | .double => some .double
  | .object _ | .array _ => some .ref

/-- Local slots, none for void. -/
def size (type : ValueType) : Nat :=
  match type.kind with
  | none => 0
  | some kind => kind.size

def isReference : ValueType → Bool
  | .object _ | .array _ => true
  | _ => false

/-- Why no type stands at the start of a text. -/
inductive Fault where
  | ended
  | unknown (letter : Char)
  | void
  deriving DecidableEq, Repr

def Fault.toError (descriptor : String) : Fault → DescriptorError
  | .ended => .unexpectedEnd descriptor
  | .unknown letter => .invalidChar letter descriptor
  | .void => .misplacedVoid descriptor

/-- The characters up to the semicolon and those after it. -/
def splitName : List Char → Option (List Char × List Char)
  | [] => none
  | c :: rest =>
      if c = ';' then some ([], rest)
      else match splitName rest with
        | none => none
        | some (name, after) => some (c :: name, after)

/-- The type at the start of a text and what follows it. -/
def scan : List Char → Except Fault (ValueType × List Char)
  | [] => .error .ended
  | 'V' :: rest => .ok (.void, rest)
  | 'Z' :: rest => .ok (.boolean, rest)
  | 'B' :: rest => .ok (.byte, rest)
  | 'C' :: rest => .ok (.char, rest)
  | 'S' :: rest => .ok (.short, rest)
  | 'I' :: rest => .ok (.int, rest)
  | 'J' :: rest => .ok (.long, rest)
  | 'F' :: rest => .ok (.float, rest)
  | 'D' :: rest => .ok (.double, rest)
  | 'L' :: rest =>
      match splitName rest with
      | none => .error .ended
      | some (name, after) => .ok (.object (String.ofList name), after)
  | '[' :: rest =>
      match scan rest with
      | .error fault => .error fault
      | .ok (element, after) =>
          if element = .void then .error .void else .ok (.array element, after)
  | c :: _ => .error (.unknown c)

/-- The type a descriptor denotes. -/
def parse (descriptor : String) : Except DescriptorError ValueType :=
  match scan descriptor.toList with
  | .error fault => .error (fault.toError descriptor)
  | .ok (type, []) => .ok type
  | .ok (_, _ :: _) => .error (.trailing descriptor)

/-- The type an internal name denotes: an array after a bracket, else a class. -/
def ofInternalName (name : String) : Except DescriptorError ValueType :=
  if name.startsWith "[" then parse name else .ok (.object name)

theorem splitName_length {text name after : List Char}
    (split : splitName text = some (name, after)) : after.length < text.length := by
  induction text generalizing name after with
  | nil => simp [splitName] at split
  | cons c rest ih =>
      unfold splitName at split
      by_cases semicolon : c = ';'
      · simp [semicolon] at split
        simp [split.2]
      · cases tail : splitName rest with
        | none => simp [semicolon, tail] at split
        | some pair =>
            obtain ⟨front, back⟩ := pair
            simp [semicolon, tail] at split
            have := ih tail
            simp [← split.2]
            omega

/-- A type takes at least one character. -/
theorem scan_length {text after : List Char} {type : ValueType}
    (scanned : scan text = .ok (type, after)) : after.length < text.length := by
  fun_induction scan text generalizing type after with
  | case12 rest name back split =>
      have shorter := splitName_length split
      simp at scanned
      simp [← scanned.2]
      omega
  | case15 rest element back _ _ ih =>
      rename_i found _
      have shorter := ih found
      simp at scanned
      simp [← scanned.2]
      omega
  | _ => simp_all

end ValueType

end StackCoroutine
