/-
The program: the application with nothing declared, on a real machine.

Events go to the standard error, those for developers only when they are asked for. A text that was
asked for goes to the standard output; a wrong command line ends with status 2, any other failure
with status 1.
-/
import Graft.Application

set_option autoImplicit false

namespace Graft

/-- Actions on the real machine, which know whether events for developers are shown. -/
abbrev Machine (α : Type) := ReaderT Bool IO α

namespace Machine

/-- Why an action failed. -/
def fileError (error : IO.Error) : FileError :=
  match error with
  | .noFileOrDirectory _ _ _ => .notFound
  | .noSuchThing _ _ _ => .notFound
  | .alreadyExists _ _ _ => .alreadyExists
  | error => .other (toString error)

/-- Runs an action and keeps its failure. -/
def guarded {α : Type} (action : IO α) : Machine (Except FileError α) := fun _ => do
  match ← action.toBaseIO with
  | .ok value => return .ok value
  | .error error => return .error (fileError error)

/-- What the system knows about a path. -/
def metadata (path : Path) := do
  if path.text = "" then throw (IO.userError "the path is empty")
  ((← IO.currentDir) / path.text).metadata

/-- Writes a content to a temporary file in the directory that it is for and then puts it in
place. -/
def place (path : Path) (content : ByteArray) (put : String → IO Unit) : IO Unit := do
  let name := ".tmp" ++ toString (100000 + (← IO.monoNanosNow) % 900000)
  let temporary := toString ((← IO.currentDir) / path.directory.text / name)
  IO.FS.writeBinFile temporary content
  try put temporary
  catch error =>
    IO.FS.removeFile temporary
    throw error

/-- The word for a level. -/
def levelText : Level → String
  | .debug => "DEBUG"
  | .info => "INFO"
  | .warn => "WARN"

/-- The line that reports an event. -/
def eventText (event : Event) : String :=
  levelText event.level ++ " " ++ event.message ++
    String.join (event.fields.map (fun (name, value) => " " ++ name ++ "=" ++ value)) ++ "\n"

instance : Host Machine where
  readBytes path := guarded (IO.FS.readBinFile path.text)
  present path := return (← guarded (metadata path)).isOk
  isFile path := return match ← guarded (metadata path) with
    | .ok found => found.type == .file
    | .error _ => false
  list path := guarded do
    return (← ((← IO.currentDir) / path.text).readDir).toList.map (fun entry => entry.fileName)
  createDirectories path := guarded (unless path.text = "" do IO.FS.createDirAll path.text)
  createFile path content := guarded (place path content (fun temporary => do
    IO.FS.hardLink temporary path.text
    IO.FS.removeFile temporary))
  replaceFile path content :=
    guarded (place path content (fun temporary => IO.FS.rename temporary path.text))
  writeFile path content := guarded (IO.FS.writeBinFile path.text content)
  removeFile path := guarded (IO.FS.removeFile path.text)
  temporaryDirectory := fun _ => return ⟨(← IO.getEnv "TMPDIR").getD "/tmp"⟩
  currentDirectory := guarded (return ⟨toString (← IO.currentDir)⟩)
  log event := fun verbose =>
    if verbose || event.level ≠ .debug then IO.eprint (eventText event) else pure ()

/-- Whether the environment asks for the events for developers. -/
def developing : IO Bool :=
  return (← IO.getEnv "WEAVE_LOG").any (fun level => level.toLower = "debug")

/-- Runs the application and gives its exit status. -/
def serve (commandLine : CommandLine) : IO UInt32 := do
  let configured := (← IO.getEnv "WEAVE_CONFIG").map Path.mk
  let verbose := commandLine.verbose || (← developing)
  match ← (Application.run .empty commandLine configured : Machine _) verbose with
  | .ok () => return 0
  | .error failure =>
    IO.eprintln ("Error: " ++ failure.message)
    return 1

end Machine

end Graft

open Graft

/-- Reads the command line and does what it asks. -/
def main (arguments : List String) : IO UInt32 := do
  match CommandLine.read arguments with
  | .ok commandLine => Machine.serve commandLine
  | .error error =>
    let text := CommandLine.usageMessage error
    match error with
    | .help => IO.print text; return 0
    | .version => IO.print text; return 0
    | _ => IO.eprint text; return 2
