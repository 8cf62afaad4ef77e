/-
Marks: which fingerprints were seen since a lock file last changed.

The marks are a set of texts that is kept in one file, a JSON array written anew on every change.
The digest of the lock file is itself one of the marks; while it is missing, every other mark is
forgotten. An unreadable lock file makes every fingerprint new and touches nothing.

A fault of the storage never makes a fingerprint look seen: from then on all of them are new.
-/
import Graft.Collections.OrderedSet
import Graft.Hash.Sha256
import Graft.Host
import Graft.Json.Codec

set_option autoImplicit false

namespace Graft

/-- Why the marks could not be read or kept. -/
inductive MarksError
  | io (path : Path) (error : FileError)
  /-- The file holds no array of strings. -/
  | json (path : Path)
  deriving DecidableEq

/-- The failure in words. -/
def MarksError.message : MarksError → String
  | .io path error => "cache file " ++ path.text ++ ": " ++ error.message
  | .json path => "cache file " ++ path.text ++ " is not a JSON string array"

/-- A set of marks with its file. -/
structure Marks where
  /-- Where the marks are kept. -/
  file : Path
  /-- The file whose change makes all marks void. -/
  lockFile : Path
  /-- The marks in memory, once they were read. -/
  seen : Option (OrderedSet String)
  /-- Whether a fault of the storage was met. -/
  degraded : Bool

namespace Marks

/-- Marks kept in a file and made void by changes of another. -/
def new (file lockFile : Path) : Marks := ⟨file, lockFile, none, false⟩

/-- The place of the marks when none is configured, below the directory for temporary files. -/
def defaultFile (temporary : Path) : Path :=
  (temporary.entry "weave").entry "analyzer-actions-cache.json"

/-- The content of the file for a set of marks. -/
def content (seen : OrderedSet String) : ByteArray := (Json.toText seen.toList).toUTF8

section

variable {m : Type → Type} [Monad m] [Host m]

/-- Steps that change marks and may fail. What was changed before a failure stays changed. -/
abbrev Step (m : Type → Type) (α : Type) := ExceptT MarksError (StateT Marks m) α

/-- Uses a service of the machine. -/
def host {α : Type} (action : m α) : Step m α := ExceptT.lift (StateT.lift action)

/-- Uses a file operation of the machine; its failure is one of the marks' file. -/
def guardIo {α : Type} (action : m (Except FileError α)) : Step m α := do
  let result : Except FileError α ← host action
  match result with
  | .ok value => return value
  | .error error => throw (.io (← get).file error)

/-! ## 1. The file and its image in memory -/

/-- Forgets all marks and deletes the file. -/
def flush : Step m Unit := do
  modify (fun marks => { marks with seen := some .empty })
  let removed : Except FileError Unit ← host (Host.removeFile (← get).file)
  match removed with
  | .ok () => pure ()
  | .error .notFound => pure ()
  | .error error => throw (.io (← get).file error)

/-- The marks of the file. A missing file holds none; one that holds something else is deleted. -/
def hydrate : Step m (OrderedSet String) := do
  let file := (← get).file
  let read : Except FileError ByteArray ← host (Host.readBytes file)
  match read with
  | .error .notFound => return .empty
  | .error error => throw (.io file error)
  | .ok bytes =>
    match (Json.ofBytes? bytes : Option (List String)) with
    | some values => return .ofList values
    | none =>
      host (Host.warn "discarding unreadable cache file"
        [("error", (MarksError.json file).message)])
      flush
      return .empty

/-- The marks, read from the file when they are first needed. -/
def storage : Step m (OrderedSet String) := do
  match (← get).seen with
  | some seen => return seen
  | none =>
    let seen ← hydrate
    modify (fun marks => { marks with seen := some seen })
    return seen

/-- Writes the marks in memory to the file. -/
def persist : Step m Unit := do
  let marks ← get
  guardIo (Host.createDirectories marks.file.directory)
  guardIo (Host.replaceFile marks.file (content (marks.seen.getD .empty)))

/-- Adds a mark. -/
def synchronize (mark : String) : Step m Unit := do
  let seen ← storage
  modify (fun marks => { marks with seen := some (seen.insert mark) })
  persist

/-! ## 2. Questions -/

/-- Whether a mark is recorded. The lock file is not looked at. -/
def contains (mark : String) : Step m Bool := do return (← storage).contains mark

/-- Removes a mark. -/
def forget (mark : String) : Step m Unit := do
  let seen ← storage
  if seen.contains mark then
    modify (fun marks => { marks with seen := some (seen.erase mark) })
    persist

/-- Whether a fingerprint is new under the present digest of the lock file; it is recorded. -/
def check (indicator fingerprint : String) : Step m Bool := do
  if !(← storage).contains indicator then
    host (Host.debug "lock artifact changed; flushing cache" [("indicator", indicator)])
    flush
    synchronize indicator
  if (← storage).contains fingerprint then return false
  synchronize fingerprint
  return true

/-- Whether a fingerprint is new, and records it. -/
def isNew (marks : Marks) (fingerprint : String) : m (Bool × Marks) := do
  match ← Host.readBytes marks.lockFile with
  | .error error =>
    Host.debug "lock artifact unavailable" [("lock_file", marks.lockFile.text),
      ("error", error.message)]
    return (true, marks)
  | .ok bytes =>
    if marks.degraded then return (true, marks)
    match ← (check (Sha256.hexDigest bytes) fingerprint).run.run marks with
    | (.ok fresh, marks) => return (fresh, marks)
    | (.error error, marks) =>
      Host.warn "analyzer cache degraded; artifacts will always regenerate"
        [("error", error.message)]
      return (true, { marks with degraded := true })

end

end Marks

end Graft
