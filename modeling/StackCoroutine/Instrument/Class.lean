import StackCoroutine.Coroutine.SavedFrame
import StackCoroutine.Decimal.Layout
import StackCoroutine.Instrument.Method

/-!
Instrumented classes. Besides their code they gain a field for every continuation point, by which
saved frames of other classes are told apart, and a field that says they are instrumented.
-/

namespace StackCoroutine

/-- What was done to a class. -/
structure ClassReport where
  className : String
  alreadyInstrumented : Bool
  /-- The methods that were changed. -/
  methods : List MethodReport
  deriving DecidableEq, Repr, Inhabited

def ClassReport.pointCount (report : ClassReport) : Nat :=
  report.methods.foldr (fun method count => method.pointCount + count) 0

/-- A constant as messages show it. -/
def Constant.display : Constant → String
  | .int number => "Int(" ++ toString number.toInt ++ ")"
  | .long number => "Long(" ++ toString number.toInt ++ ")"
  | .float number => "Float(" ++ Decimal.Layout.detailed.single number ++ ")"
  | .double number => "Double(" ++ Decimal.Layout.detailed.double number ++ ")"
  | .text content => content

namespace ClassFile

/-- Value of the marker field. -/
def formatTag : String := "resumable-1"

/-- A constant that nobody has written into the source of the class. -/
def syntheticField (name descriptor : String) (value : Constant) : Field :=
  { access := Access.isStatic ||| Access.isFinal ||| Access.isSynthetic
    name
    descriptor
    value := some value }

def markerField : Field :=
  syntheticField Protocol.markerField "Lstd/String;" (.text formatTag)

/-- Adds the fields of the points of a method, unless another method has given them already. -/
def addPointFields (report : MethodReport) (fields : List Field) : List Field :=
  (List.range report.pointCount).foldl (fun fields point =>
    let number := Int32.ofNat point
    let name := SavedFrame.pointFieldName report.methodId number
    if fields.any fun field => field.name == name then fields
    else fields ++ [syntheticField name "I" (.int number)]) fields

/-- A class on its way through its methods. -/
structure Progress where
  fields : List Field
  methods : List Method
  reports : List MethodReport
  /-- A method with a body takes a context. -/
  suspendable : Bool

def Progress.keep (progress : Progress) (method : Method) : Progress :=
  { progress with methods := progress.methods ++ [method] }

/-- Instruments the next method. -/
def instrumentNext (hierarchy : Hierarchy) (settings : InstrumentSettings) (owner : String)
    (progress : Progress) (method : Method) : Except InstrumentError Progress := do
  if method.isAbstract then return progress.keep method
  let type ← method.type.mapError (.descriptor (method.label owner))
  if (contextParameter? hierarchy type).isNone then return progress.keep method
  match ← method.instrument hierarchy settings owner with
  | none => return { progress.keep method with suspendable := true }
  | some (finished, report) =>
      return {
        fields := addPointFields report progress.fields
        methods := progress.methods ++ [finished]
        reports := progress.reports ++ [report]
        suspendable := true }

def instrumentMethods (hierarchy : Hierarchy) (settings : InstrumentSettings) (file : ClassFile) :
    Except InstrumentError (ClassFile × ClassReport) := do
  let progress ← file.methods.foldlM (instrumentNext hierarchy settings file.name)
    ⟨file.fields, [], [], false⟩
  let fields := if progress.suspendable then progress.fields ++ [markerField] else progress.fields
  return ({ file with fields, methods := progress.methods },
    ⟨file.name, false, progress.reports⟩)

/-- Instruments a class. One that is instrumented stays as it is, and so does an interface. -/
def instrument (hierarchy : Hierarchy) (settings : InstrumentSettings) (file : ClassFile) :
    Except InstrumentError (ClassFile × ClassReport) :=
  match file.findField? Protocol.markerField with
  | some marker =>
      if marker.value = some (.text formatTag) then .ok (file, ⟨file.name, true, []⟩)
      else .error (.markerMismatch file.name (marker.value.map Constant.display) formatTag)
  | none =>
      if file.isInterface then .ok (file, ⟨file.name, false, []⟩)
      else instrumentMethods hierarchy settings file

end ClassFile

end StackCoroutine
