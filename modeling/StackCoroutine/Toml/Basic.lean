/-!
Documents of the settings language: named values in tables. A table that a header or a dotted name
leads through exists before it is defined; who may still add to a table depends on how it came
about.
-/

namespace StackCoroutine

inductive Toml where
  | text (content : String)
  | integer
  | float
  | bool (value : Bool)
  /-- A date, a time, or both. -/
  | moment
  | array (items : List Toml)
  /-- A table written as a value; it is complete. -/
  | inlineTable (entries : List (String × Toml))
  /-- A table of the document. An implicit one has no header of its own; a dotted one comes from a
  dotted name. -/
  | table (implicit dotted : Bool) (entries : List (String × Toml))
  /-- Tables under one repeated header. -/
  | tables (elements : List (List (String × Toml)))
  deriving Repr, Inhabited

namespace Toml

/-- Named values, each name once. -/
abbrev Entries := List (String × Toml)

/-- Puts a value under a name, in the place of the one it has. -/
def put (entries : Entries) (name : String) (value : Toml) : Entries :=
  if entries.any fun entry => entry.1 == name then
    entries.map fun entry => if entry.1 == name then (name, value) else entry
  else entries ++ [(name, value)]

/-- The value under a new name. -/
def addNew? (entries : Entries) (name : String) (value : Toml) : Option Entries :=
  if entries.any fun entry => entry.1 == name then none else some (entries ++ [(name, value)])

/-- Changes the table that a path of headers leads to; what is missing on the way is made. -/
def descend? (change : Entries → Option Entries) : List String → Entries → Option Entries
  | [], entries => change entries
  | name :: rest, entries =>
      match entries.lookup name with
      | none => do return put entries name (.table true false (← descend? change rest []))
      | some (.table implicit dotted inner) => do
          return put entries name (.table implicit dotted (← descend? change rest inner))
      | some (.tables elements) => do
          let last ← elements.getLast?
          return put entries name (.tables (elements.dropLast ++ [← descend? change rest last]))
      | some _ => none

/-- Adds a value under a dotted name. Only tables that dotted names have made take part. -/
def addDotted? (value : Toml) : List String → Entries → Option Entries
  | [], _ => none
  | [name], entries => addNew? entries name value
  | name :: rest, entries =>
      match entries.lookup name with
      | none => do return put entries name (.table true true (← addDotted? value rest []))
      | some (.table true true inner) => do
          return put entries name (.table true true (← addDotted? value rest inner))
      | some (.table true false inner) =>
          match rest with
          | [] | [_] => none
          | _ => do return put entries name (.table true false (← addDotted? value rest inner))
      | some (.tables elements) =>
          match rest with
          | [] | [_] => none
          | _ => do
              let last ← elements.getLast?
              let changed ← addDotted? value rest last
              return put entries name (.tables (elements.dropLast ++ [changed]))
      | some _ => none

/-- The table with all the given values, each under its dotted name. -/
def addAll? (entries : Entries) (values : List (List String × Toml)) : Option Entries :=
  values.foldlM (fun entries (path, value) => addDotted? value path entries) entries

inductive Header where
  /-- The start of the document. -/
  | top
  | single (path : List String)
  | repeated (path : List String)
  deriving DecidableEq, Repr

/-- Adds a section: its header and the values that follow it. -/
def addSection? (document : Entries) (header : Header) (values : List (List String × Toml)) :
    Option Entries :=
  match header with
  | .top => addAll? document values
  | .single path => do
      let name ← path.getLast?
      descend? (fun parent => match parent.lookup name with
        | none => do return put parent name (.table false false (← addAll? [] values))
        | some (.table true false inner) => do
            return put parent name (.table false false (← addAll? inner values))
        | some _ => none) path.dropLast document
  | .repeated path => do
      let name ← path.getLast?
      descend? (fun parent => match parent.lookup name with
        | none => do return put parent name (.tables [← addAll? [] values])
        | some (.tables elements) => do
            return put parent name (.tables (elements ++ [← addAll? [] values]))
        | some _ => none) path.dropLast document

end Toml

end StackCoroutine
