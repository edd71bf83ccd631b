import StackCoroutine.CommandLine.Failure
import StackCoroutine.CommandLine.Output
import StackCoroutine.CommandLine.Path

/-!
What the tool needs from its surroundings: files, and a place to print to. The commands run with any
surroundings, those of a process or files held in memory.
-/

namespace StackCoroutine

inductive FileFault where
  | notFound
  | exists
  | notDirectory
  | isDirectory
  | nameTooLong
  | nulInName
  | invalidText
  | other (text : String)
  deriving DecidableEq, Repr

def FileFault.message : FileFault → String
  | .notFound => "No such file or directory (os error 2)"
  | .exists => "File exists (os error 17)"
  | .notDirectory => "Not a directory (os error 20)"
  | .isDirectory => "Is a directory (os error 21)"
  | .nameTooLong => "File name too long (os error 36)"
  | .nulInName => "file name contained an unexpected NUL byte"
  | .invalidText => "stream did not contain valid UTF-8"
  | .other text => text

class Host (m : Type → Type) where
  isFile : String → m Bool
  isDirectory : String → m Bool
  /-- The names in a directory. -/
  entries : String → m (Except FileFault (List String))
  read : String → m (Except FileFault (List UInt8))
  /-- Makes the file, or replaces its content. -/
  write : String → List UInt8 → m (Except FileFault Unit)
  /-- Makes a directory where nothing is yet, in one that is there. -/
  makeDirectory : String → m (Except FileFault Unit)
  remove : String → m (Except FileFault Unit)
  print : Span → m Unit

namespace Host

variable {m : Type → Type} [Monad m] [Host m]

/-- A file access of the tool; what was tried is told before the fault. -/
def attempt (tried : String) (access : m (Except FileFault α)) : ExceptT Failure m α := do
  match ← access with
  | .ok value => return value
  | .error fault => throw ⟨tried, [fault.message]⟩

def readBytes (path : String) : ExceptT Failure m (List UInt8) :=
  attempt ("Failed to read " ++ path) (read path)

def readText (path : String) : ExceptT Failure m String := do
  match Decoder.utf8? (← readBytes path) with
  | some text => return text
  | none => throw ⟨"Failed to read " ++ path, [FileFault.invalidText.message]⟩

def writeBytes (path : String) (bytes : List UInt8) : ExceptT Failure m Unit :=
  attempt ("Failed to write " ++ path) (write path bytes)

def isPresent (path : String) : ExceptT Failure m Bool :=
  ExceptT.lift do return (← isFile path) || (← isDirectory path)

/-- Makes a directory unless it is there. -/
def ensureDirectory (path : String) : m (Except FileFault Unit) := do
  match ← makeDirectory path with
  | .error .exists => return if ← isDirectory path then .ok () else .error .exists
  | outcome => return outcome

/-- Makes the first directory of the list. Where it has no place yet, those behind it are made
first; they stay even if it cannot be made in the end. -/
def ensureDirectories : List String → m (Except FileFault Unit)
  | [] => return .ok ()
  | path :: above => do
      match ← ensureDirectory path with
      | .error .notFound =>
          match ← ensureDirectories above with
          | .ok () => ensureDirectory path
          | .error fault => return .error fault
      | outcome => return outcome

/-- Makes a directory with those above it; any of them may be there. -/
def makeDirectories (path : String) : m (Except FileFault Unit) :=
  ensureDirectories (Path.ancestors path)

def printAll (spans : List Span) : ExceptT Failure m Unit := ExceptT.lift (spans.forM print)

end Host

end StackCoroutine
