import StackCoroutine.CommandLine.ClassFiles
import StackCoroutine.CommandLine.Request
import StackCoroutine.CommandLine.SettingsFile

/-!
Instrumenting class files: each instrumented class is written into one directory.
-/

namespace StackCoroutine

namespace InstrumentRequest

variable {m : Type → Type} [Monad m] [Host m]

/-- The settings of the file, as changed by the options. -/
def readSettings (request : InstrumentRequest) : ExceptT Failure m InstrumentSettings := do
  let settings ← InstrumentSettings.readFile request.settings
  return ⟨request.markers.getD settings.markers, request.debugMode || settings.debugMode⟩

/-- A note on a class that has been written. -/
def note (report : ClassReport) (path : String) : List Span :=
  let work : List Span :=
    if report.alreadyInstrumented then
      [⟨.skipped, "  Skipped "⟩, ⟨.plain, report.className ++ " (already instrumented)"⟩]
    else
      [⟨.done, "  Instrumented "⟩,
        ⟨.plain, report.className ++ " (" ++ toString report.methods.length ++ " methods, " ++
          toString report.pointCount ++ " points)"⟩]
  work ++ [⟨.plain, " -> "⟩, ⟨.quiet, path⟩, .newline]

def execute (request : InstrumentRequest) : ExceptT Failure m Unit := do
  let settings ← request.readSettings
  let classes ← ClassFiles.readAll request.files
  Host.attempt ("Failed to create " ++ request.outDirectory)
    (Host.makeDirectories request.outDirectory)
  for file in classes do
    let (finished, report) ← ClassFiles.instrumentOne classes settings file
    let path ← ClassFiles.writeOne request.outDirectory request.json finished
    Host.printAll (note report path)

end InstrumentRequest

end StackCoroutine
