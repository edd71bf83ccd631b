import StackCoroutine.CommandLine.Execution

/-!
The tool as a process: its surroundings are the files of the system and the terminal.
-/

namespace StackCoroutine

/-- Says which fault an error of the system is. -/
def FileFault.ofSystem : IO.Error → FileFault
  | .noFileOrDirectory _ _ _ => .notFound
  | .alreadyExists _ _ _ => .exists
  | .inappropriateType _ code details =>
      if code = 20 then .notDirectory else if code = 21 then .isDirectory else .other details
  | error => .other (toString error)

/-- An action of the process that knows whether its output is coloured. -/
abbrev Terminal := ReaderT Bool IO

namespace Terminal

def tell (access : IO α) : Terminal (Except FileFault α) := do
  try return .ok (← access) catch error => return .error (.ofSystem error)

/-- Whether there is something at a path, and whether it is a directory. -/
def isDirectory? (path : String) : IO (Option Bool) := do
  try return some (← (← IO.FS.realPath path).isDir) catch _ => return none

instance : Host Terminal where
  isFile path := return (← isDirectory? path) == some false
  isDirectory path := return (← isDirectory? path) == some true
  entries path := tell do
    return (← (← IO.FS.realPath path).readDir).toList.map fun entry => entry.fileName
  read path := tell do return (← IO.FS.readBinFile path).toList
  write path bytes := tell (IO.FS.writeBinFile path bytes.toByteArray)
  makeDirectory path := tell (IO.FS.createDir path)
  remove path := tell (IO.FS.removeFile path)
  print span := do IO.print (span.render (← read))

/-- Ends with code 1 after a failure and with code 2 if the arguments ask for nothing. -/
def run (arguments : List String) : IO UInt32 := do
  match Invocation.ofTexts? arguments with
  | none =>
      IO.eprintln "error: expected instrument, inspect or run with their options and class files"
      return 2
  | some invocation =>
      let isPlain := (← IO.getEnv "NO_COLOR").isSome
      let work : ExceptT Failure Terminal Unit := invocation.request.execute
      match ← work.run (invocation.isColoured isPlain) with
      | .ok () => return 0
      | .error failure =>
          IO.eprintln failure.report
          return 1

end Terminal

end StackCoroutine

def main (arguments : List String) : IO UInt32 := StackCoroutine.Terminal.run arguments
