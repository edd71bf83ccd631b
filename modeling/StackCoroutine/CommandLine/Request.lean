import StackCoroutine.CommandLine.Options
import StackCoroutine.Instrument.Settings

/-!
What the arguments of the tool ask for.
-/

namespace StackCoroutine

structure InstrumentRequest where
  files : List String
  outDirectory : String
  settings : Option String
  markers : Option MarkerStyle
  debugMode : Bool
  json : Bool
  deriving DecidableEq, Repr

structure InspectRequest where
  files : List String
  json : Bool
  deriving DecidableEq, Repr

structure RunRequest where
  files : List String
  className : String
  method : String
  instrument : Bool
  settings : Option String
  /-- The file for the suspended coroutine; with one, a run ends at the next suspension. -/
  state : Option String
  maxSteps : Option Nat
  arguments : List String
  deriving DecidableEq, Repr

inductive Request where
  | instrument (request : InstrumentRequest)
  | inspect (request : InspectRequest)
  | run (request : RunRequest)
  deriving DecidableEq, Repr

namespace Argument

/-- The values of an option, in order. -/
def values (arguments : List Argument) (name : String) : List String :=
  arguments.filterMap fun
    | .option other value => if other == name then some value else none
    | _ => none

/-- The value of an option that is given once at most. -/
def value? (arguments : List Argument) (name : String) : Option (Option String) :=
  match values arguments name with
  | [] => some none
  | [value] => some (some value)
  | _ => none

def isGiven? (arguments : List Argument) (name : String) : Option Bool :=
  return (← value? arguments name).isSome

/-- A value as something else. -/
def read? (arguments : List Argument) (name : String) (decode : String → Option α) :
    Option (Option α) := do
  match ← value? arguments name with
  | none => return none
  | some value => return some (← decode value)

/-- A path has a name. -/
def nonEmpty? (path : String) : Option String := if path.isEmpty then none else some path

/-- A whole number of 64 bits without sign, though a plus may precede it. -/
def count? (text : String) : Option Nat :=
  let digits := match text.toList with
    | '+' :: digits => digits
    | digits => digits
  let value := digits.foldl (fun value digit => value * 10 + (digit.toNat - '0'.toNat)) 0
  if !digits.isEmpty && digits.all Char.isDigit && value ≤ 0xFFFFFFFFFFFFFFFF then some value
  else none

def positional? : Argument → Option String
  | .positional value => some value
  | _ => none

/-- The paths among the arguments, at least one. -/
def files? (arguments : List Argument) : Option (List String) := do
  let paths ← (arguments.filterMap positional?).mapM nonEmpty?
  if paths.isEmpty then none else some paths

end Argument

namespace Request

open Argument

/-- The request for a command with the arguments after its name. -/
def ofArguments? (command : Command) (arguments : List Argument) : Option Request := do
  let files ← files? arguments
  match command with
  | .instrument => return .instrument {
      files
      outDirectory := (← read? arguments "out-dir" nonEmpty?).getD "instrumented"
      settings := ← read? arguments "settings" nonEmpty?
      markers := ← read? arguments "markers" MarkerStyle.ofName?
      debugMode := ← isGiven? arguments "debug-mode"
      json := ← isGiven? arguments "json" }
  | .inspect => return .inspect { files, json := ← isGiven? arguments "json" }
  | .run => return .run {
      files
      className := ← ← value? arguments "class"
      method := (← value? arguments "method").getD "run"
      instrument := ← isGiven? arguments "instrument"
      settings := ← read? arguments "settings" nonEmpty?
      state := ← read? arguments "state" nonEmpty?
      maxSteps := ← read? arguments "max-steps" count?
      arguments := values arguments "arg" }

end Request

/-- A request with the wish for colour, if there is one. -/
structure Invocation where
  color : Option String
  request : Request
  deriving DecidableEq, Repr

namespace Invocation

/-- General options after the name of the command win over those before it. -/
def ofArguments? (arguments : List Argument) : Option Invocation := do
  let isCommand : Argument → Bool
    | .command _ => true
    | _ => false
  match arguments.span (!isCommand ·) with
  | (before, .command command :: after) =>
      let _ ← Argument.isGiven? before "verbose"
      let _ ← Argument.isGiven? after "verbose"
      let outer ← Argument.value? before "color"
      let inner ← Argument.value? after "color"
      return ⟨inner.or outer, ← Request.ofArguments? command after⟩
  | _ => none

/-- The request of the arguments of the tool. -/
def ofTexts? (texts : List String) : Option Invocation := do
  ofArguments? (← Argument.ofTexts? none texts)

/-- Output is coloured unless the surroundings or the request forbid it. -/
def isColoured (invocation : Invocation) (plainOutput : Bool) : Bool :=
  !plainOutput && invocation.color != some "never"

end Invocation

end StackCoroutine
