import StackCoroutine.Instrument.Class

/-!
The JSON form of the reports on instrumented classes.
-/

namespace StackCoroutine

def MethodReport.toJson (report : MethodReport) : Json :=
  .object [("name", .string report.name), ("descriptor", .string report.descriptor),
    ("method_id", .integer report.methodId.toInt),
    ("suspend_points", .ofNat report.suspendPoints),
    ("invoke_points", .ofNat report.invokePoints),
    ("try_catch_points", .ofNat report.guardedPoints),
    ("synchronization_points", .ofNat report.monitorUses),
    ("max_locals", .ofNat report.maxLocals.toNat), ("max_stack", .ofNat report.maxStack.toNat)]

def ClassReport.toJson (report : ClassReport) : Json :=
  .object [("class", .string report.className),
    ("already_instrumented", .bool report.alreadyInstrumented),
    ("methods", .ofList MethodReport.toJson report.methods)]

end StackCoroutine
