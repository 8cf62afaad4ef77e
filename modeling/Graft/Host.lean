/-
The services of the machine: files, directories, and a log.

Everything in this library that touches files or reports what it does is written for an arbitrary
monad with these services. A program runs it on a real machine, a test on a pure model of one, and
a proof may choose a machine whose services fail as they please.
-/
import Graft.Path

set_option autoImplicit false

namespace Graft

/-- Why a file operation failed. -/
inductive FileError
  | notFound
  | alreadyExists
  | notDirectory
  | isDirectory
  | notEmpty
  | nameTooLong
  /-- The path holds a NUL character. -/
  | invalidPath
  /-- The content is no text. -/
  | notText
  /-- Anything else, in the words of the system. -/
  | other (reason : String)
  deriving DecidableEq

/-- The reason in words. -/
def FileError.message : FileError → String
  | .notFound => "No such file or directory (os error 2)"
  | .alreadyExists => "File exists (os error 17)"
  | .notDirectory => "Not a directory (os error 20)"
  | .isDirectory => "Is a directory (os error 21)"
  | .notEmpty => "Directory not empty (os error 39)"
  | .nameTooLong => "File name too long (os error 36)"
  | .invalidPath => "file name contained an unexpected NUL byte"
  | .notText => "stream did not contain valid UTF-8"
  | .other reason => reason

/-- How much an event matters. -/
inductive Level
  | debug
  | info
  | warn
  deriving DecidableEq

/-- Something worth reporting: a message and named details. -/
structure Event where
  level : Level
  message : String
  fields : List (String × String)
  deriving DecidableEq

/-- A machine with files and a log. -/
class Host (m : Type → Type) where
  /-- The content of a file. -/
  readBytes : Path → m (Except FileError ByteArray)
  /-- Whether anything is at a path. -/
  present : Path → m Bool
  /-- Whether a regular file is at a path. -/
  isFile : Path → m Bool
  /-- The names in a directory. They are all there before anything is done with one of them, so a
  listing fails as a whole; that reading a directory may break off at an entry, after something was
  done with earlier ones, is left out. -/
  list : Path → m (Except FileError (List String))
  /-- Makes a directory and the missing ones above it. -/
  createDirectories : Path → m (Except FileError Unit)
  /-- Makes a new file with the whole content at once, and fails if something is there or if a
  temporary file cannot be made beside it. -/
  createFile : Path → ByteArray → m (Except FileError Unit)
  /-- Makes or replaces a file with the whole content at once, by way of a temporary file beside
  it. -/
  replaceFile : Path → ByteArray → m (Except FileError Unit)
  /-- Makes or overwrites a file in place. -/
  writeFile : Path → ByteArray → m (Except FileError Unit)
  /-- Deletes a file. -/
  removeFile : Path → m (Except FileError Unit)
  /-- Where temporary files belong. -/
  temporaryDirectory : m Path
  /-- The absolute path of the current directory. -/
  currentDirectory : m (Except FileError Path)
  /-- Reports an event. -/
  log : Event → m Unit

namespace Host

variable {m : Type → Type} [Monad m] [Host m]

/-- Reports something of interest to a developer. -/
def debug (message : String) (fields : List (String × String)) : m Unit :=
  log ⟨.debug, message, fields⟩

/-- Reports something of interest to a user. -/
def info (message : String) (fields : List (String × String)) : m Unit :=
  log ⟨.info, message, fields⟩

/-- Reports something that should not have happened. -/
def warn (message : String) (fields : List (String × String)) : m Unit :=
  log ⟨.warn, message, fields⟩

/-- The content of a file as text. -/
def readText (path : Path) : m (Except FileError String) := do
  match ← readBytes path with
  | .error error => return .error error
  | .ok bytes =>
    match String.fromUTF8? bytes with
    | some text => return .ok text
    | none => return .error .notText

/-- Makes or overwrites a file, after the directories above it. -/
def placeFile (path : Path) (content : ByteArray) : m (Except FileError Unit) := do
  match ← createDirectories path.directory with
  | .ok () => writeFile path content
  | .error error => return .error error

end Host

end Graft
