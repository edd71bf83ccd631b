import StackCoroutine.CommandLine.ClassFiles
import StackCoroutine.CommandLine.Request
import StackCoroutine.CommandLine.SavedCoroutine
import StackCoroutine.CommandLine.SettingsFile

/-!
Running a coroutine. Without a state file it is resumed until it completes. With one it runs to its
next suspension, where the file keeps it for the next run.
-/

namespace StackCoroutine

namespace RunRequest

variable {m : Type → Type} [Monad m] [Host m]

/-- More instructions than any invocation takes. -/
def instructionLimit : Nat := 0x4000000000000000

/-- More suspensions than any coroutine makes. -/
def suspensionLimit : Nat := 0x4000000000000000

/-- The classes to run, instrumented if that is asked for. -/
def readClasses (request : RunRequest) : ExceptT Failure m (List ClassFile) := do
  let classes ← ClassFiles.readAll request.files
  if !request.instrument then return classes
  let settings ← InstrumentSettings.readFile request.settings
  let found ← ClassFiles.instrumentAll classes settings
  return found.map Prod.fst

def load (classes : List ClassFile) : Except Failure Vm :=
  match Vm.empty.loadClasses classes with
  | (.ok (), vm) => .ok vm
  | (.error cause, _) => .error ⟨"Failed to load classes", cause.chain⟩

/-- Adds the arguments to the heap. -/
def addArguments (request : RunRequest) (runner : Runner MachineCoroutine Value) :
    List Value × Runner MachineCoroutine Value :=
  let (values, vm) := request.arguments.foldl (fun (values, vm) text =>
    let (value, vm) := vm.newText text
    (values ++ [value], vm)) ([], runner.state.vm)
  (values, { runner with state.vm := vm })

/-- Runs to the next suspension or to the end, and prints what the program printed. -/
def executeOnce (request : RunRequest) (arguments : List Value)
    (runner : Runner MachineCoroutine Value) :
    ExceptT Failure m (Bool × Runner MachineCoroutine Value) := do
  let (outcome, runner) := runner.execute (MachineCoroutine.body instructionLimit) arguments
  let (lines, vm) := runner.state.vm.takeOutput
  Host.printAll (lines.map fun line => ⟨.plain, line ++ "\n"⟩)
  match outcome with
  | .ok suspended => return (suspended, { runner with state.vm := vm })
  | .error cause =>
      throw ⟨request.className ++ "." ++ request.method ++ " failed", cause.chain⟩

/-- Resumes to the end, but through so many suspensions at most, and counts them. -/
def complete (request : RunRequest) (arguments : List Value) :
    Nat → Nat → Runner MachineCoroutine Value → ExceptT Failure m Nat
  | 0, steps, _ => throw ⟨s!"Coroutine still suspended after {steps} steps", []⟩
  | left + 1, steps, runner => do
      let (suspended, runner) ← request.executeOnce arguments runner
      if !suspended then return steps
      Host.printAll [⟨.quiet, s!"-- suspended ({steps + 1})"⟩, .newline]
      request.complete arguments left (steps + 1) runner

/-- A bound of no suspensions still allows the first one. -/
def runToEnd (request : RunRequest) (vm : Vm) : ExceptT Failure m Unit := do
  let start := Runner.ofParts ⟨vm, request.className, request.method⟩ .empty
  let (arguments, runner) := request.addArguments start
  let steps ← request.complete arguments ((request.maxSteps.getD suspensionLimit).max 1) 0 runner
  Host.printAll [⟨.done, "Completed"⟩, ⟨.plain, s!" after {steps} suspensions"⟩, .newline]

/-- The coroutine a state file keeps, or a new one if there is no such file. -/
def start (request : RunRequest) (vm : Vm) (path : String) :
    ExceptT Failure m (Runner MachineCoroutine Value) := do
  if ← Host.isPresent path then
    let saved ← SavedCoroutine.readFile path
    saved.check path request.className request.method vm.classes
    return saved.resume vm
  else return .ofParts ⟨vm, request.className, request.method⟩ .empty

def runStep (request : RunRequest) (vm : Vm) (path : String) : ExceptT Failure m Unit := do
  let (arguments, runner) := request.addArguments (← request.start vm path)
  let (suspended, runner) ← request.executeOnce arguments runner
  if suspended then
    SavedCoroutine.writeFile path (.ofRunner runner)
    Host.printAll [⟨.quiet, "-- suspended, state saved to " ++ path⟩, .newline]
  else
    if ← Host.isPresent path then
      Host.attempt ("Failed to remove " ++ path) (Host.remove path)
    Host.printAll [⟨.done, "Completed"⟩, .newline]

def execute (request : RunRequest) : ExceptT Failure m Unit := do
  let vm ← load (← request.readClasses)
  match request.state with
  | some path => request.runStep vm path
  | none => request.runToEnd vm

end RunRequest

end StackCoroutine
