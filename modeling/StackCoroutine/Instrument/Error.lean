import StackCoroutine.Text.Quoted
import StackCoroutine.Verification

/-!
Why a class cannot be instrumented.
-/

namespace StackCoroutine

inductive InstrumentError where
  | suspendInConstructor (method : String)
  | dynamicCallSite (method name descriptor : String)
  | markerMismatch (className : String) (found : Option String) (expected : String)
  | analysis (method : String) (cause : AnalyzeError)
  | verify (cause : VerifyError)
  | descriptor (method : String) (cause : DescriptorError)
  | tooManyLocals (method : String)
  deriving DecidableEq, Repr

/-- The text of a marker that was found, if there was one. -/
def quoteFound : Option String → String
  | none => "None"
  | some text => "Some(" ++ Text.quote text ++ ")"

def InstrumentError.message : InstrumentError → String
  | .suspendInConstructor method =>
      method ++ ": constructors cannot contain continuation points"
  | .dynamicCallSite method name type =>
      method ++ ": dynamic call site " ++ name ++ type ++ " takes a suspendable context"
  | .markerMismatch className found expected =>
      className ++ ": instrumentation marker " ++ quoteFound found ++ " does not match " ++
        Text.quote expected
  | .analysis method cause => method ++ ": frame analysis failed: " ++ cause.message
  | .verify cause => "Instrumented code failed verification: " ++ cause.message
  | .descriptor method cause => method ++ ": " ++ cause.message
  | .tooManyLocals method => method ++ ": too many local variables (max 65535)"

end StackCoroutine
