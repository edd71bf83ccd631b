import StackCoroutine.Checksum
import StackCoroutine.Code.Encoding

/-!
Classes: names of supertypes, fields and methods. Method bodies are lists of instructions with a
table of try blocks, innermost first.
-/

namespace StackCoroutine

namespace Access

def isPublic : UInt16 := 0x0001
def isStatic : UInt16 := 0x0008
def isFinal : UInt16 := 0x0010
def isInterface : UInt16 := 0x0200
def isAbstract : UInt16 := 0x0400
def isSynthetic : UInt16 := 0x1000

def has (flags flag : UInt16) : Bool := flags &&& flag != 0

end Access

/-- Initial value of a static field. -/
inductive Constant where
  | int (value : Int32)
  | long (value : Int64)
  | float (value : Binary32)
  | double (value : Binary64)
  | text (value : String)
  deriving DecidableEq, Repr, Inhabited

/-- The same constant, compared as numbers. -/
def Constant.agrees : Constant → Constant → Bool
  | .float a, .float b => a.eq b
  | .double a, .double b => a.eq b
  | a, b => a = b

structure Field where
  access : UInt16
  name : String
  descriptor : String
  value : Option Constant
  deriving DecidableEq, Repr, Inhabited

namespace Field

def isStatic (field : Field) : Bool := Access.has field.access Access.isStatic

def agrees (a b : Field) : Bool :=
  a.access = b.access && a.name = b.name && a.descriptor = b.descriptor &&
    match a.value, b.value with
    | none, none => true
    | some x, some y => x.agrees y
    | _, _ => false

end Field

structure Method where
  access : UInt16
  name : String
  descriptor : String
  maxStack : UInt16
  maxLocals : UInt16
  code : List Insn
  tryBlocks : List TryBlock
  deriving DecidableEq, Repr, Inhabited

/-- Elementwise comparison of two lists. -/
def agreeAll (agree : α → α → Bool) : List α → List α → Bool
  | [], [] => true
  | a :: as, b :: bs => agree a b && agreeAll agree as bs
  | _, _ => false

namespace Method

def isStatic (method : Method) : Bool := Access.has method.access Access.isStatic
def isAbstract (method : Method) : Bool := Access.has method.access Access.isAbstract
def isConstructor (method : Method) : Bool := method.name == Names.constructor

def type (method : Method) : Except DescriptorError MethodType :=
  MethodType.parse method.descriptor

def resultType (method : Method) : Except DescriptorError ValueType := return (← method.type).result

/-- Local slots of the receiver. -/
def receiverSlots (method : Method) : Nat := if method.isStatic then 0 else 1

/-- Local slots of the receiver and the parameters. -/
def argumentSlots (method : Method) : Except DescriptorError Nat :=
  return method.receiverSlots + (← method.type).parameterSlots

/-- Name and descriptor. -/
def signature (method : Method) : String × String := (method.name, method.descriptor)

/-- How messages name a method of the given class. -/
def label (owner : String) (method : Method) : String :=
  owner ++ "." ++ method.name ++ method.descriptor

def agrees (a b : Method) : Bool :=
  a.access = b.access && a.name = b.name && a.descriptor = b.descriptor &&
    a.maxStack = b.maxStack && a.maxLocals = b.maxLocals &&
    agreeAll Insn.agrees a.code b.code && a.tryBlocks = b.tryBlocks

end Method

structure ClassFile where
  access : UInt16
  name : String
  /-- Absent for the root class only. -/
  superName : Option String
  interfaces : List String
  fields : List Field
  methods : List Method
  deriving DecidableEq, Repr, Inhabited

namespace ClassFile

/-- A public class without members, right below the root. -/
def empty (name : String) : ClassFile :=
  { access := Access.isPublic
    name := name
    superName := some Names.object
    interfaces := []
    fields := []
    methods := [] }

def isInterface (file : ClassFile) : Bool := Access.has file.access Access.isInterface

def findMethodIndex? (file : ClassFile) (name descriptor : String) : Option Nat :=
  file.methods.findIdx? fun method => method.name == name && method.descriptor == descriptor

def findField? (file : ClassFile) (name : String) : Option Field :=
  file.fields.find? fun field => field.name == name

/-- The same class, constants compared as numbers. -/
def agrees (a b : ClassFile) : Bool :=
  a.access = b.access && a.name = b.name && a.superName = b.superName &&
    a.interfaces = b.interfaces && agreeAll Field.agrees a.fields b.fields &&
    agreeAll Method.agrees a.methods b.methods

end ClassFile

end StackCoroutine
