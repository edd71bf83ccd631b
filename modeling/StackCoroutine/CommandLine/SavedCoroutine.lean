import StackCoroutine.CommandLine.Host
import StackCoroutine.Json.Printer
import StackCoroutine.Json.Reader
import StackCoroutine.Machine.Form

/-!
The file that keeps a suspended coroutine: its entry point, the state of its machine and its
context.
-/

namespace StackCoroutine

structure SavedCoroutine where
  className : String
  method : String
  machine : MachineState
  context : Context Value
  deriving DecidableEq, Repr

namespace SavedCoroutine

def toJson (saved : SavedCoroutine) : Json :=
  .object [("class", .string saved.className), ("method", .string saved.method),
    ("vm", saved.machine.toJson), ("context", saved.context.toJson)]

def ofJson? (value : Json) : Option SavedCoroutine := do
  let record ← value.record? ["class", "method", "vm", "context"]
  return ⟨← record.required 0 Json.string?, ← record.required 1 Json.string?,
    ← record.required 2 MachineState.ofJson?, ← record.required 3 Context.ofJson?⟩

instance : JsonForm SavedCoroutine := ⟨toJson, ofJson?⟩

def ofRunner (runner : Runner MachineCoroutine Value) : SavedCoroutine :=
  ⟨runner.state.className, runner.state.method, runner.state.vm.state, runner.context⟩

/-- Goes on in a machine with the classes loaded. -/
def resume (saved : SavedCoroutine) (vm : Vm) : Runner MachineCoroutine Value :=
  .ofParts ⟨vm.restore saved.machine, saved.className, saved.method⟩ saved.context

/-- A file fits an entry point of its own, and classes that still have every point it was saved
at. -/
def check (saved : SavedCoroutine) (path className method : String) (classes : ClassTable) :
    Except Failure Unit :=
  if saved.className != className || saved.method != method then
    .error ⟨"State file " ++ path ++ " belongs to " ++ saved.className ++ "." ++ saved.method, []⟩
  else
    match saved.context.isCompatible classes.declaresField with
    | .error cause => .error ⟨cause.message, []⟩
    | .ok false => .error ⟨"State file " ++ path ++ " does not match the loaded classes", []⟩
    | .ok true => .ok ()

variable {m : Type → Type} [Monad m] [Host m]

def readFile (path : String) : ExceptT Failure m SavedCoroutine := do
  match (Json.parse? (← Host.readText path)).bind ofJson? with
  | some saved => return saved
  | none => throw ⟨"Invalid state file " ++ path, []⟩

def writeFile (path : String) (saved : SavedCoroutine) : ExceptT Failure m Unit :=
  Host.writeBytes path saved.toJson.compact.toUTF8.toList

end SavedCoroutine

end StackCoroutine
