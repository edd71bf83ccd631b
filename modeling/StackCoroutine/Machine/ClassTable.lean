import StackCoroutine.Coroutine.Protocol
import StackCoroutine.Machine.Native
import StackCoroutine.Machine.Value
import StackCoroutine.Verification

/-!
The classes a machine knows: those it provides itself and those loaded into it, which are verified
and whose methods are prepared for execution.
-/

namespace StackCoroutine

inductive MachineError where
  | stackOverflow
  | stackUnderflow
  | type (fault : TypeFault)
  | classNotFound (className : String)
  | noSuchMethod (method : String)
  | noSuchField (field : String)
  | missingContext
  | unsupported (what : String)
  | protocol (cause : ProtocolError)
  | verify (cause : VerifyError)
  | analyze (cause : AnalyzeError)
  | descriptor (cause : DescriptorError)
  | uncaught (className : String) (text : Option String)
  /-- The bound on the steps of a run is used up. -/
  | stepLimit
  deriving DecidableEq, Repr

def MachineError.message : MachineError → String
  | .stackOverflow => "Stack overflow"
  | .stackUnderflow => "Stack underflow"
  | .type fault => "Type error: " ++ fault.message
  | .classNotFound className => "Class " ++ className ++ " not found"
  | .noSuchMethod method => "No such method " ++ method
  | .noSuchField field => "No such field " ++ field
  | .missingContext => "No suspendable context is attached to this invocation"
  | .unsupported what => "Unsupported: " ++ what
  | .protocol cause => cause.message
  | .verify cause => cause.message
  | .analyze cause => cause.message
  | .descriptor cause => cause.message
  | .uncaught className text => "Uncaught " ++ className ++ ": " ++ text.getD "(no message)"
  | .stepLimit => "Step limit reached"

/-- An exception handler by instruction indices; none as its class catches everything. -/
structure CatchRange where
  start : Nat
  stop : Nat
  target : Nat
  caught : Option String
  deriving DecidableEq, Repr

def CatchRange.covers (range : CatchRange) (index : Nat) : Bool :=
  range.start ≤ index && index < range.stop

/-- A method ready to run. -/
structure PreparedMethod where
  owner : String
  method : Method
  code : Array Insn
  labels : LabelTable
  handlers : List CatchRange
  parameters : List ValueType
  deriving Repr

namespace PreparedMethod

def position (prepared : PreparedMethod) (label : Label) : Except MachineError Nat :=
  (Analysis.resolve prepared.labels label).mapError .analyze

def displayName (prepared : PreparedMethod) : String := prepared.method.label prepared.owner

def prepareRange (labels : LabelTable) (block : TryBlock) : Except AnalyzeError CatchRange := do
  return ⟨← Analysis.resolve labels block.start, ← Analysis.resolve labels block.stop,
    ← Analysis.resolve labels block.handler, block.caught⟩

def prepare (owner : String) (method : Method) : Except MachineError PreparedMethod := do
  let labels ← (Analysis.labelTable method.code).mapError .analyze
  let handlers ← (method.tryBlocks.mapM (prepareRange labels)).mapError .analyze
  let type ← method.type.mapError .descriptor
  return ⟨owner, method, method.code.toArray, labels, handlers, type.parameters⟩

end PreparedMethod

structure LoadedClass where
  file : ClassFile
  /-- The methods with a body. -/
  methods : List PreparedMethod
  deriving Repr

def LoadedClass.method? (loaded : LoadedClass) (name descriptor : String) :
    Option PreparedMethod :=
  loaded.methods.find? fun prepared =>
    prepared.method.name == name && prepared.method.descriptor == descriptor

/-- The hierarchy of all known classes, and the loaded ones by name, the latest first. -/
structure ClassTable where
  hierarchy : Hierarchy
  loaded : List (String × LoadedClass)
  deriving Repr

namespace ClassTable

/-- The hierarchy of the classes the machine provides, those of the protocol among them. -/
def hostHierarchy : Hierarchy :=
  [Protocol.contextClass, Protocol.savedFrameClass, Protocol.lockStateClass,
    Protocol.outputClass].foldl
    (fun hierarchy name => hierarchy.add name ⟨some Names.object, [], false⟩) .builtins

def empty : ClassTable := ⟨hostHierarchy, []⟩

def find? (table : ClassTable) (name : String) : Option LoadedClass := table.loaded.lookup name

def isKnown (table : ClassTable) (name : String) : Bool := table.hierarchy.contains name

/-- Verifies a class and prepares its methods. -/
def prepareClass (hierarchy : Hierarchy) (file : ClassFile) : Except MachineError LoadedClass := do
  let _ ← (Verification.verifyClass hierarchy file).mapError .verify
  let bodies := file.methods.filter fun method => !method.isAbstract
  return ⟨file, ← bodies.mapM (PreparedMethod.prepare file.name)⟩

def insert (table : ClassTable) (loaded : LoadedClass) : ClassTable :=
  { table with
    loaded := (loaded.file.name, loaded) ::
      table.loaded.filter fun entry => entry.1 != loaded.file.name }

/-- Loads classes in turn; those before one that is refused stay. -/
def loadInTurn (table : ClassTable) : List ClassFile →
    Except MachineError (List LoadedClass) × ClassTable
  | [] => (.ok [], table)
  | file :: rest =>
      match prepareClass table.hierarchy file with
      | .error cause => (.error cause, table)
      | .ok loaded =>
          let (result, last) := (table.insert loaded).loadInTurn rest
          (result.map (loaded :: ·), last)

/-- Loads a batch of classes, which may refer to each other in any order. -/
def loadAll (table : ClassTable) (files : List ClassFile) :
    Except MachineError (List LoadedClass) × ClassTable :=
  { table with hierarchy := table.hierarchy.addClasses files }.loadInTurn files

def ancestryWithin (table : ClassTable) : Nat → String → List String
  | 0, name => [name]
  | steps + 1, name =>
      name :: match table.hierarchy.superClass? name with
        | some parent => table.ancestryWithin steps parent
        | none => []

/-- A class and its superclasses, upward. -/
def ancestry (table : ClassTable) (name : String) : List String :=
  table.ancestryWithin table.hierarchy.height name

/-- The first method with a body from a class upward. -/
def findMethod? (table : ClassTable) (className name descriptor : String) :
    Option PreparedMethod :=
  (table.ancestry className).findSome? fun ancestor =>
    (table.find? ancestor).bind fun loaded => loaded.method? name descriptor

/-- The class that declares a field, from a class upward, with the type of the field. -/
def fieldOwner? (table : ClassTable) (className name : String) : Option (String × ValueType) :=
  (table.ancestry className).findSome? fun ancestor => do
    let loaded ← table.find? ancestor
    let field ← loaded.file.findField? name
    match ValueType.parse field.descriptor with
    | .ok type => some (ancestor, type)
    | .error _ => none

/-- Whether a loaded class declares a field. -/
def declaresField (table : ClassTable) (className fieldName : String) : Option Bool :=
  (table.find? className).map fun loaded => (loaded.file.findField? fieldName).isSome

/-- What a call runs. -/
inductive Target where
  | code (method : PreparedMethod)
  | native (method : Native)
  deriving Repr

/-- The first implementation of a method from a class upward. -/
def resolve? (table : ClassTable) (className name descriptor : String) : Option Target :=
  (table.ancestry className).findSome? fun ancestor =>
    match (table.find? ancestor).bind fun loaded => loaded.method? name descriptor with
    | some method => some (.code method)
    | none => (Native.find? ⟨ancestor, name, descriptor⟩).map .native

end ClassTable

end StackCoroutine
