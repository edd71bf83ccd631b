import StackCoroutine.Json.Record

/-!
What instrumented code contains besides the work itself. None of it changes what a program does, its
output apart.
-/

namespace StackCoroutine

/-- How the steps of saving and restoring show in the generated code. -/
inductive MarkerStyle where
  | none
  /-- A text constant that is dropped at once. -/
  | constant
  /-- A line of output. -/
  | stdout
  deriving DecidableEq, Repr, Inhabited

structure InstrumentSettings where
  markers : MarkerStyle
  /-- Restores the locals also before a call is made again. -/
  debugMode : Bool
  deriving DecidableEq, Repr, Inhabited

namespace MarkerStyle

def name : MarkerStyle → String
  | .none => "none"
  | .constant => "constant"
  | .stdout => "stdout"

def all : List MarkerStyle := [.none, .constant, .stdout]

def ofName? (name : String) : Option MarkerStyle := all.find? fun style => style.name == name

end MarkerStyle

namespace InstrumentSettings

def standard : InstrumentSettings := ⟨.none, false⟩

def toJson (settings : InstrumentSettings) : Json :=
  .object [("marker_type", .string settings.markers.name),
    ("debug_mode", .bool settings.debugMode)]

/-- Settings that are not mentioned keep their standard values. -/
def ofJson? (value : Json) : Option InstrumentSettings := do
  let record ← value.record? ["marker_type", "debug_mode"]
  let styles := MarkerStyle.all.map fun style => (style.name, style)
  return ⟨← record.defaulted 0 standard.markers (Json.choice? styles),
    ← record.defaulted 1 standard.debugMode Json.bool?⟩

instance : JsonForm InstrumentSettings := ⟨toJson, ofJson?⟩

end InstrumentSettings

end StackCoroutine
