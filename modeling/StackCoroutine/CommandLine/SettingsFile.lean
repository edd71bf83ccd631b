import StackCoroutine.CommandLine.Host
import StackCoroutine.Instrument.Settings
import StackCoroutine.Toml.Reader

/-!
Instrumentation settings from a settings file.
-/

namespace StackCoroutine

namespace InstrumentSettings

/-- A value without content, which may stand beside the name of an alternative. -/
def isVoid : Toml → Bool
  | .array items => items.isEmpty
  | .inlineTable entries => entries.isEmpty
  | .table _ _ entries => entries.isEmpty
  | _ => false

def markersOfToml? : Toml → Option MarkerStyle
  | .text name => MarkerStyle.ofName? name
  | .inlineTable [(name, held)] | .table _ _ [(name, held)] =>
      if isVoid held then MarkerStyle.ofName? name else none
  | _ => none

def boolOfToml? : Toml → Option Bool
  | .bool value => some value
  | _ => none

/-- Settings that are not mentioned keep their standard values; other names are passed over. -/
def ofToml? (entries : Toml.Entries) : Option InstrumentSettings := do
  let setting {α : Type} (name : String) (decode : Toml → Option α) (usual : α) : Option α :=
    match entries.lookup name with
    | some value => decode value
    | none => some usual
  return ⟨← setting "marker_type" markersOfToml? standard.markers,
    ← setting "debug_mode" boolOfToml? standard.debugMode⟩

/-- The settings of a file, or the standard ones without a file. -/
def readFile {m : Type → Type} [Monad m] [Host m] :
    Option String → ExceptT Failure m InstrumentSettings
  | none => return standard
  | some path => do
      match (Toml.parse? (← Host.readText path)).bind ofToml? with
      | some settings => return settings
      | none => throw ⟨"Invalid settings file " ++ path, []⟩

end InstrumentSettings

end StackCoroutine
