import StackCoroutine.Coroutine.Context
import StackCoroutine.Machine.ClassTable
import StackCoroutine.Machine.Heap
import StackCoroutine.Machine.Monitors

/-!
What running code can change: heap, static fields, monitors, output and the context of the
coroutine, if there is one. Changes made before a failure stay.
-/

namespace StackCoroutine

structure World where
  heap : Heap
  /-- Static fields, named by class and field. -/
  statics : Slots
  monitors : Monitors
  /-- Lines printed, the latest first. -/
  output : List String
  context : Option (Context Value)
  deriving Repr, Inhabited

/-- Why an instruction is not completed. -/
inductive Abort where
  | error (cause : MachineError)
  /-- An exception on its way to a handler. -/
  | thrown (exception : ObjectRef)
  deriving DecidableEq, Repr

abbrev Exec := ExceptT Abort (StateM World)

namespace Exec

def fail (cause : MachineError) : Exec α := throw (.error cause)

def ofMachine (result : Except MachineError α) : Exec α :=
  match result with
  | .ok value => pure value
  | .error cause => fail cause

def ofType (result : Except TypeFault α) : Exec α := ofMachine (result.mapError .type)

def ofProtocol (result : Except ProtocolError α) : Exec α := ofMachine (result.mapError .protocol)

def heap : Exec Heap := return (← get).heap

/-- Reads the heap. -/
def reading (read : Heap → Except TypeFault α) : Exec α := do ofType (read (← heap))

/-- Changes the heap with a result. -/
def changing (change : Heap → α × Heap) : Exec α :=
  modifyGet fun world =>
    let (value, heap) := change world.heap
    (value, { world with heap })

def changeHeap (change : Heap → Heap) : Exec Unit :=
  modify fun world => { world with heap := change world.heap }

/-- Name of the field that holds the message of a throwable. -/
def messageField : String := "message"

/-- Throws a new exception of a class the machine provides. -/
def raise (className text : String) : Exec α := do
  let message ← changing fun heap => heap.newText text
  let exception ← changing fun heap => heap.alloc (.instance className [(messageField, message)])
  throw (.thrown exception)

/-- The object, or an exception for null. -/
def nonNull (value : Value) (action : String) : Exec ObjectRef := do
  match ← ofType value.asObject with
  | some object => return object
  | none => raise Names.nullPointer (action ++ " on null")

def context : Exec (Context Value) := do
  match (← get).context with
  | some context => return context
  | none => fail .missingContext

def setContext (context : Context Value) : Exec Unit :=
  modify fun world => { world with context := some context }

end Exec

end StackCoroutine
