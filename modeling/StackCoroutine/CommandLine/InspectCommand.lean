import StackCoroutine.CommandLine.ClassFiles
import StackCoroutine.CommandLine.Request
import StackCoroutine.Instrument.Form

/-!
Showing what instrumentation would do to class files.
-/

namespace StackCoroutine

def MethodReport.summary (report : MethodReport) : List Span :=
  let counts : List (String × Nat) :=
    [("suspend", report.suspendPoints), ("invoke", report.invokePoints),
      ("try/catch", report.guardedPoints), ("monitors", report.monitorUses),
      ("locals", report.maxLocals.toNat), ("stack", report.maxStack.toNat)]
  let texts := counts.map fun (name, count) => "  " ++ name ++ " " ++ toString count
  [⟨.plain, "  "⟩, ⟨.name, report.name ++ report.descriptor⟩, .newline,
    ⟨.plain, "    id 0x" ++ Hex.padded 8 report.methodId.toUInt32.toNat ++ String.join texts⟩,
    .newline]

def ClassReport.summary (report : ClassReport) : List Span :=
  ⟨.heading, report.className⟩ ::
    if report.alreadyInstrumented then [⟨.quiet, " (already instrumented)"⟩, .newline]
    else .newline ::
      if report.methods.isEmpty then [⟨.quiet, "  no suspendable methods"⟩, .newline]
      else report.methods.flatMap MethodReport.summary

namespace InspectRequest

variable {m : Type → Type} [Monad m] [Host m]

def execute (request : InspectRequest) : ExceptT Failure m Unit := do
  let classes ← ClassFiles.readAll request.files
  let found ← ClassFiles.instrumentAll classes .standard
  let reports := found.map Prod.snd
  Host.printAll (if request.json then
    [⟨.plain, (Json.ofList ClassReport.toJson reports).pretty⟩, .newline]
  else reports.flatMap ClassReport.summary)

end InspectRequest

end StackCoroutine
