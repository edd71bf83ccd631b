import StackCoroutine.Frame.Analysis

/-!
Verification of classes: every method body passes the frame analysis within its declared stack,
names are declared once, and bodies are there exactly where a method is not abstract.
-/

namespace StackCoroutine

inductive VerifyError where
  | analysis (method : String) (cause : AnalyzeError)
  | maxStackTooSmall (method : String) (declared required : Nat)
  | duplicateMethod (method : String)
  | duplicateField (field : String)
  | bodyMismatch (method : String)
  | descriptor (name : String) (cause : DescriptorError)
  deriving DecidableEq, Repr

def VerifyError.message : VerifyError → String
  | .analysis method cause => method ++ ": " ++ cause.message
  | .maxStackTooSmall method declared required =>
      method ++ s!": max_stack {declared} is below the required {required}"
  | .duplicateMethod method => "Duplicate method " ++ method
  | .duplicateField field => "Duplicate field " ++ field
  | .bodyMismatch method => method ++ ": body does not match the abstract flag"
  | .descriptor name cause => name ++ ": " ++ cause.message

namespace Verification

/-- Verifies a method with a body. -/
def verifyMethod (hierarchy : Hierarchy) (owner : String) (method : Method) :
    Except VerifyError Analysis := do
  let label := method.label owner
  if method.code.isEmpty then throw (.bodyMismatch label)
  let analysis ← (Analysis.analyze hierarchy owner method).mapError (.analysis label)
  if method.maxStack.toNat < analysis.maxStack then
    throw (.maxStackTooSmall label method.maxStack.toNat analysis.maxStack)
  return analysis

def verifyFields (seen : List String) : List Field → Except VerifyError Unit
  | [] => .ok ()
  | field :: rest => do
      let _ ← (ValueType.parse field.descriptor).mapError (.descriptor field.name)
      if field.name ∈ seen then throw (.duplicateField field.name)
      verifyFields (field.name :: seen) rest

/-- An abstract method has no body and no analysis. -/
def verifyMember (hierarchy : Hierarchy) (owner : String) (method : Method) :
    Except VerifyError (Option Analysis) :=
  if method.isAbstract then
    if method.code.isEmpty then
      match method.type with
      | .ok _ => .ok none
      | .error cause => .error (.descriptor (method.label owner) cause)
    else .error (.bodyMismatch (method.label owner))
  else (verifyMethod hierarchy owner method).map some

def verifyMethods (hierarchy : Hierarchy) (owner : String) (seen : List (String × String)) :
    List Method → Except VerifyError (List (Option Analysis))
  | [] => .ok []
  | method :: rest => do
      if method.signature ∈ seen then throw (.duplicateMethod (method.label owner))
      let analysis ← verifyMember hierarchy owner method
      return analysis :: (← verifyMethods hierarchy owner (method.signature :: seen) rest)

/-- Verifies a class and gives the analysis of each of its methods. -/
def verifyClass (hierarchy : Hierarchy) (file : ClassFile) :
    Except VerifyError (List (Option Analysis)) := do
  verifyFields [] file.fields
  verifyMethods hierarchy file.name [] file.methods

end Verification

end StackCoroutine
