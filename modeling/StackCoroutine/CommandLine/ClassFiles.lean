import StackCoroutine.Class.Form
import StackCoroutine.CommandLine.Host
import StackCoroutine.CommandLine.Path
import StackCoroutine.Instrument.Class
import StackCoroutine.Machine.ClassTable

/-!
Class files of the tool: finding them in directories, reading them in either form, and writing them.
-/

namespace StackCoroutine

namespace ClassFiles

variable {m : Type → Type} [Monad m] [Host m]

def byteExtension : String := "rsum"

def textExtension : String := "json"

def hasExtension (name : String) : Bool :=
  Path.extension? name == some byteExtension || Path.extension? name == some textExtension

/-- Directories nest less deep than this, as the length of a path is bounded. -/
def depthLimit : Nat := 4096

/-- The class files in a directory and below it, by name and directory by directory. -/
def within : Nat → String → ExceptT Failure m (List String)
  | 0, _ => return []
  | depth + 1, directory => do
      let names ← Host.attempt ("Failed to read " ++ directory) (Host.entries directory)
      let found ← (names.mergeSort fun a b => a ≤ b).mapM fun name => do
        let path := Path.join directory name
        if ← ExceptT.lift (Host.isDirectory path) then within depth path
        else return if hasExtension name then [path] else []
      return found.flatten

/-- The class files a path names: the file there, whatever its name, or those in the directory. -/
def named (path : String) : ExceptT Failure m (List String) := do
  if ← ExceptT.lift (Host.isFile path) then return [path]
  else if ← ExceptT.lift (Host.isDirectory path) then within depthLimit path
  else throw ⟨"No such file or directory: " ++ path, []⟩

def readOne (path : String) : ExceptT Failure m ClassFile := do
  match ClassFile.ofBytes (← Host.readBytes path) with
  | .ok file => return file
  | .error cause => throw ⟨"Invalid class file " ++ path, cause.chain⟩

/-- Reads all classes that the paths name. -/
def readAll (paths : List String) : ExceptT Failure m (List ClassFile) := do
  let found ← paths.mapM named
  if found.flatten.isEmpty then throw ⟨"No class files found", []⟩
  found.flatten.mapM readOne

/-- Name of the file for a class, in one directory for all packages. -/
def fileName (file : ClassFile) (isText : Bool) : String :=
  ".".intercalate (file.name.splitOn "/") ++ "." ++
    if isText then textExtension else byteExtension

/-- Writes a class and gives the path of its file. -/
def writeOne (directory : String) (isText : Bool) (file : ClassFile) :
    ExceptT Failure m String := do
  let path := Path.join directory (fileName file isText)
  Host.writeBytes path (if isText then file.toJsonText.toUTF8.toList else file.encode)
  return path

/-- Instruments one of the classes. -/
def instrumentOne (classes : List ClassFile) (settings : InstrumentSettings) (file : ClassFile) :
    Except Failure (ClassFile × ClassReport) :=
  (file.instrument (ClassTable.hostHierarchy.addClasses classes) settings).mapError fun cause =>
    ⟨"Failed to instrument " ++ file.name, cause.chain⟩

def instrumentAll (classes : List ClassFile) (settings : InstrumentSettings) :
    Except Failure (List (ClassFile × ClassReport)) :=
  classes.mapM (instrumentOne classes settings)

end ClassFiles

end StackCoroutine
