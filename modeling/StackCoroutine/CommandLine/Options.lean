/-!
The arguments of the tool as options and positional arguments. An option has a name after two
dashes, and may have a letter after one; its value follows it, in the same argument or in the next.
Letters of options without a value can share a dash. After an argument of two dashes everything is
positional.
-/

namespace StackCoroutine

structure OptionForm where
  name : String
  letter : Option Char
  takesValue : Bool
  deriving DecidableEq, Repr

/-- What the tool is asked to do. -/
inductive Command where
  | instrument
  | inspect
  | run
  deriving DecidableEq, Repr

inductive Argument where
  /-- An option with its value; without a value the text is empty. -/
  | option (name value : String)
  | positional (value : String)
  | command (command : Command)
  deriving DecidableEq, Repr

namespace OptionForm

def flag (name : String) (letter : Option Char) : OptionForm := ⟨name, letter, false⟩

def valued (name : String) (letter : Option Char) : OptionForm := ⟨name, letter, true⟩

/-- The options for every command, which may stand before it too. -/
def general : List OptionForm := [flag "verbose" 'v', valued "color" none]

end OptionForm

namespace Command

def all : List (String × Command) :=
  [("instrument", instrument), ("inspect", inspect), ("run", run)]

def ofName? (name : String) : Option Command := all.lookup name

open OptionForm (flag valued)

/-- The options of a command. -/
def options : Command → List OptionForm
  | .instrument =>
      [valued "out-dir" 'o', valued "settings" 's', valued "markers" none, flag "debug-mode" none,
        flag "json" none]
  | .inspect => [flag "json" none]
  | .run =>
      [valued "class" 'c', valued "method" 'm', flag "instrument" none, valued "settings" 's',
        valued "state" none, valued "max-steps" none, valued "arg" 'a']

end Command

namespace Argument

/-- Arguments read, and the name of an option that still needs its value. -/
abbrev Reading := List Argument × Option String

/-- An option after two dashes. -/
def ofName? (forms : List OptionForm) (text : List Char) : Option Reading := do
  let (name, attached) := text.span (· ≠ '=')
  let form ← forms.find? fun form => form.name == String.ofList name
  match form.takesValue, attached with
  | true, _ :: value => return ([.option form.name (String.ofList value)], none)
  | true, [] => return ([], form.name)
  | false, [] => return ([.option form.name ""], none)
  | false, _ => none

/-- Options after one dash. What follows the letter of an option with a value is that value. -/
def ofLetters? (forms : List OptionForm) : List Char → Option Reading
  | [] => some ([], none)
  | letter :: rest => do
      let form ← forms.find? fun form => form.letter == some letter
      match form.takesValue, rest with
      | true, [] => return ([], form.name)
      | true, '=' :: value => return ([.option form.name (String.ofList value)], none)
      | true, value => return ([.option form.name (String.ofList value)], none)
      | false, rest => do
          let (others, waiting) ← ofLetters? forms rest
          return (.option form.name "" :: others, waiting)

/-- Whether an argument can only be an option. One dash alone is a value. -/
def isOption (text : String) : Bool :=
  match text.toList with
  | '-' :: _ :: _ => true
  | _ => false

/-- A single argument. The first positional one names the command. -/
def ofText? (command : Option Command) (text : String) : Option Reading :=
  let forms := OptionForm.general ++ (command.map Command.options).getD []
  match text.toList with
  | '-' :: '-' :: name => ofName? forms name
  | '-' :: letter :: letters => ofLetters? forms (letter :: letters)
  | _ =>
      match command with
      | some _ => some ([.positional text], none)
      | none => (Command.ofName? text).map fun command => ([.command command], none)

/-- The command known after some arguments. -/
def commandAfter (command : Option Command) : List Argument → Option Command
  | [.command found] => some found
  | _ => command

/-- Reads arguments in turn; none if one of them is not understood. -/
def ofTexts? (command : Option Command) : List String → Option (List Argument)
  | [] => some []
  | "--" :: rest => if command.isSome then some (rest.map .positional) else none
  | text :: rest => do
      match ← ofText? command text with
      | (found, none) => return found ++ (← ofTexts? (commandAfter command found) rest)
      | (found, some name) =>
          match rest with
          | [] => none
          | value :: rest =>
              if isOption value then none
              else return found ++ .option name value :: (← ofTexts? command rest)

end Argument

end StackCoroutine
