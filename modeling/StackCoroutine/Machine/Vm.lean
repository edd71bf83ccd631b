import StackCoroutine.Coroutine.Runner
import StackCoroutine.Machine.Step

/-!
The machine as its user sees it: classes are loaded into it, static methods are invoked, and its
state can be kept and restored. A coroutine is a static method that takes the context.
-/

namespace StackCoroutine

/-- What the frames of a suspended coroutine can refer to. -/
structure MachineState where
  heap : Heap
  statics : Slots
  deriving DecidableEq, Repr, Inhabited

structure Vm where
  classes : ClassTable
  state : MachineState
  monitors : Monitors
  /-- Lines printed and not taken yet, the latest first. -/
  output : List String
  deriving Repr

namespace Vm

def empty : Vm := ⟨.empty, ⟨.empty, []⟩, .empty, []⟩

def initialValue (heap : Heap) (field : Field) : Except MachineError (Value × Heap) :=
  match field.value with
  | some (.int value) => .ok (.int value, heap)
  | some (.long value) => .ok (.long value, heap)
  | some (.float value) => .ok (.float value, heap)
  | some (.double value) => .ok (.double value, heap)
  | some (.text content) =>
      let (object, grown) := heap.intern content
      .ok (.ref object, grown)
  | none =>
      match ValueType.parse field.descriptor with
      | .ok type => .ok (Value.ofType type, heap)
      | .error cause => .error (.descriptor cause)

/-- Gives a static field its initial value unless it has one. -/
def initStatic (className : String) (state : MachineState) (field : Field) :
    Except MachineError MachineState := do
  let (value, heap) ← initialValue state.heap field
  return ⟨heap, state.statics.insertNew (className ++ "." ++ field.name) value⟩

/-- The static fields of classes with the names of their classes. -/
def staticFields (loaded : List LoadedClass) : List (String × Field) :=
  loaded.flatMap fun entry =>
    (entry.file.fields.filter Field.isStatic).map fun field => (entry.file.name, field)

/-- Loads a batch of classes and initialises their static fields. -/
def loadClasses (vm : Vm) (files : List ClassFile) : Except MachineError Unit × Vm :=
  match vm.classes.loadAll files with
  | (.error cause, classes) => (.error cause, { vm with classes })
  | (.ok loaded, classes) =>
      match (staticFields loaded).foldlM (fun state (name, field) => initStatic name state field)
        vm.state with
      | .ok state => (.ok (), { vm with classes, state })
      | .error cause => (.error cause, { vm with classes })

def world (vm : Vm) (context : Option (Context Value)) : World :=
  ⟨vm.state.heap, vm.state.statics, vm.monitors, vm.output, context⟩

def ofWorld (vm : Vm) (world : World) : Vm :=
  { vm with
    state := ⟨world.heap, world.statics⟩
    monitors := world.monitors
    output := world.output }

/-- The error for an exception that no method handles. -/
def uncaught (heap : Heap) (exception : ObjectRef) : MachineError :=
  match heap.get exception with
  | .error fault => .type fault
  | .ok object =>
      let text := match object with
        | .instance _ fields =>
            match fields.get? Exec.messageField with
            | some (.ref message) => (heap.text message).toOption
            | _ => none
        | _ => none
      .uncaught object.className text

/-- A static method of exactly this class. -/
def staticMethod (vm : Vm) (method : MethodRef) : Except MachineError PreparedMethod :=
  match vm.classes.find? method.owner with
  | none => .error (.classNotFound method.owner)
  | some loaded =>
      match (loaded.method? method.name method.descriptor).filter
        fun prepared => prepared.method.isStatic with
      | some prepared => .ok prepared
      | none => .error (.noSuchMethod ("static " ++ method.text))

/-- Invokes a static method. Monitors still held after a failure are released. -/
def invokeStatic (limit : Nat) (vm : Vm) (method : MethodRef) (arguments : List Value)
    (context : Option (Context Value)) :
    Except MachineError (Option Value) × Vm × Option (Context Value) :=
  match vm.staticMethod method with
  | .error cause => (.error cause, vm, context)
  | .ok prepared =>
      let start := Machine.enter prepared arguments []
      let (outcome, world) := Machine.run vm.classes limit start (vm.world context)
      let after := vm.ofWorld world
      let released := { after with monitors := .empty }
      match outcome with
      | .returned value => (.ok value, after, world.context)
      | .thrown exception => (.error (uncaught world.heap exception), released, world.context)
      | .failed cause => (.error cause, released, world.context)

/-- A text for use as an argument. -/
def newText (vm : Vm) (content : String) : Value × Vm :=
  let (value, heap) := vm.state.heap.newText content
  (value, { vm with state := { vm.state with heap } })

def text (vm : Vm) (value : Value) : Except MachineError String :=
  match value.asObject with
  | .error fault => .error (.type fault)
  | .ok none => .error (.type .nullText)
  | .ok (some object) => (vm.state.heap.text object).mapError .type

def static? (vm : Vm) (className field : String) : Option Value :=
  vm.state.statics.get? (className ++ "." ++ field)

/-- The lines printed since they were last taken. -/
def takeOutput (vm : Vm) : List String × Vm := (vm.output.reverse, { vm with output := [] })

/-- Takes over a state kept before. -/
def restore (vm : Vm) (state : MachineState) : Vm := { vm with state, monitors := .empty }

end Vm

/-- A machine with the entry point of a coroutine. -/
structure MachineCoroutine where
  vm : Vm
  className : String
  method : String
  deriving Repr

namespace MachineCoroutine

def entry (coroutine : MachineCoroutine) : MethodRef :=
  ⟨coroutine.className, coroutine.method, MethodType.descriptor ⟨[Protocol.contextType], .void⟩⟩

/-- Invokes the entry point once. -/
def body (limit : Nat) : CoroutineBody MachineCoroutine Value MachineError :=
  fun coroutine context =>
    let (result, vm, left) :=
      coroutine.vm.invokeStatic limit coroutine.entry [.context] (some context)
    (result.map fun _ => (), { coroutine with vm }, left.getD context)

end MachineCoroutine

end StackCoroutine
