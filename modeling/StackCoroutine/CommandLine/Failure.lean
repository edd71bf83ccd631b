import StackCoroutine.Class.Encoding
import StackCoroutine.Instrument.Error
import StackCoroutine.Machine.Vm

/-!
Failures as the tool reports them: what could not be done, and the causes behind it, each with the
cause behind that one after it.
-/

namespace StackCoroutine

structure Failure where
  message : String
  causes : List String
  deriving DecidableEq, Repr, Inhabited

namespace Failure

/-- The causes, with numbers if there are several. -/
def causeLines : List String → List String
  | [] => []
  | [cause] => ["    " ++ cause]
  | causes => causes.zipIdx.map fun (cause, index) => "    " ++ toString index ++ ": " ++ cause

/-- The failure as it is reported. -/
def report (failure : Failure) : String :=
  let causes := if failure.causes.isEmpty then [] else ["", "Caused by:"]
  "\n".intercalate (("Error: " ++ failure.message) :: causes ++ causeLines failure.causes)

end Failure

/-- The text of the error, then the texts of the causes behind it. -/
def AnalyzeError.chain (error : AnalyzeError) : List String :=
  error.message :: match error with
    | .descriptor cause => [cause.message]
    | _ => []

def VerifyError.chain (error : VerifyError) : List String :=
  error.message :: match error with
    | .analysis _ cause => cause.chain
    | .descriptor _ cause => [cause.message]
    | _ => []

def InstrumentError.chain (error : InstrumentError) : List String :=
  error.message :: match error with
    | .analysis _ cause => cause.chain
    | .verify cause => cause.chain
    | .descriptor _ cause => [cause.message]
    | _ => []

/-- An error passed on from another part counts as that part's own. -/
def MachineError.chain : MachineError → List String
  | .verify cause => cause.chain
  | .analyze cause => cause.chain
  | error => [error.message]

def CoroutineError.chain : CoroutineError MachineError → List String
  | .execution cause =>
      (CoroutineError.execution cause).message MachineError.message :: cause.chain
  | error => [error.message MachineError.message]

/-- What is wrong with JSON text is not told. -/
def ClassError.chain : ClassError → List String
  | .json => ["JSON error"]
  | .decode cause => [(ClassError.decode cause).message, cause.message]
  | error => [error.message]

end StackCoroutine
