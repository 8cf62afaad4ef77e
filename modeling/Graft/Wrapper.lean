/-
Wrapper records: what a blueprint's name stood for when it was first used.

When a directory is configured, every name gets one record in it. The record is written when the
name is first used and nothing is there yet, never written again, and read once by every store; from
then on the store remembers it. What is made for a name is the blueprint that its record names.
Without a directory a name stands for itself and no file is touched.

The file of a record is named after the name, made harmless, and the start of its digest.
-/
import Graft.Blueprint
import Graft.Hash.Sha256

set_option autoImplicit false

namespace Graft

/-- The record for one name. -/
structure Wrapper where
  /-- The name that the record is for. -/
  unit : String
  /-- The blueprint that it stands for. -/
  composes : String
  kind : Blueprint.Kind
  deriving DecidableEq

instance : Json.Codec Wrapper where
  encode w := .record [("unit", .text w.unit), ("composes", .text w.composes),
    ("kind", Json.encode w.kind)]
  decode? depth json := do
    let record ← Json.record? .ignored ["unit", "composes", "kind"] depth json
    return {
      unit := ← record.required "unit"
      composes := ← record.required "composes"
      kind := ← record.required "kind" }

/-- The records in use: where they are kept, and those that were read. -/
structure WrapperStore where
  /-- No directory means that nothing is kept on disk. -/
  directory : Option Path
  loaded : OrderedMap Path Wrapper

namespace WrapperStore

/-! ## 1. File names -/

/-- A character of a file name: letters, digits, hyphens and underscores of ASCII stay. -/
def plainChar (c : Char) : Char := if c.isAlphanum || c = '-' || c = '_' then c else '_'

/-- The name of the file for a name. -/
def fileName (name : String) : String :=
  String.ofList (name.toList.map plainChar) ++ "-" ++ Sha256.shortHexOfText name ++ ".json"

/-- The path of the file for a name. -/
def path? (store : WrapperStore) (name : String) : Option Path :=
  store.directory.map (fun directory => directory.entry (fileName name))

/-- A store over a directory, or over none, that has read nothing. -/
def new (directory : Option Path) : WrapperStore := ⟨directory, .empty⟩

/-- Whether the record for a name was read. -/
def isLoaded (store : WrapperStore) (name : String) : Bool :=
  (store.path? name).any store.loaded.contains

/-! ## 2. Records on disk -/

section

variable {m : Type → Type} [Monad m] [Host m]

/-- Turns a failed file operation into an error of the record at a path. -/
def guardIo {α : Type} (path : Path) (action : m (Except FileError α)) :
    ExceptT WrapperError m α :=
  ExceptT.mk (do return (← action).mapError (WrapperError.io path))

/-- Writes a record unless something is in its place by now; what is there stays. -/
def writeOnce (path : Path) (wrapper : Wrapper) : ExceptT WrapperError m Unit := do
  guardIo path (Host.createDirectories path.directory)
  let written : Except FileError Unit ←
    ExceptT.lift (Host.createFile path (Json.toPrettyText wrapper).toUTF8)
  match written with
  | .ok () =>
    ExceptT.lift (Host.debug "wrote unit wrapper" [("unit", wrapper.unit), ("path", path.text)])
  | .error .alreadyExists =>
    ExceptT.lift (Host.debug "unit wrapper written concurrently; reusing"
      [("unit", wrapper.unit)])
  | .error error => throw (.io path error)

/-- Writes the record for a name if nothing is at its path. -/
def ensureWritten (blueprints : Blueprints) (name : String) (path : Path) :
    ExceptT WrapperError m Unit := do
  if ← ExceptT.lift (Host.present path) then pure ()
  else match blueprints.kind? name with
    | some kind => writeOnce path ⟨name, name, kind⟩
    | none => throw (.unresolved name)

/-- Reads the record at a path and makes sure that it is for the given name. -/
def read (name : String) (path : Path) : ExceptT WrapperError m Wrapper := do
  let bytes ← guardIo path (Host.readBytes path)
  match (Json.ofBytes? bytes : Option Wrapper) with
  | none => throw (.corrupt path)
  | some wrapper =>
    if wrapper.unit = name then return wrapper
    else throw (.mismatch path name wrapper.unit)

/-- The record for a name, written if need be. -/
def load (blueprints : Blueprints) (name : String) (path : Path) :
    ExceptT WrapperError m Wrapper := do
  ensureWritten blueprints name path
  read name path

/-- The blueprint that a name stands for. A record that was read is not looked at again; one that
cannot be read is not remembered. -/
def resolve (store : WrapperStore) (blueprints : Blueprints) (name : String) :
    m (Except WrapperError String × WrapperStore) :=
  match store.path? name with
  | none => pure (.ok name, store)
  | some path =>
    match store.loaded.get? path with
    | some wrapper => pure (.ok wrapper.composes, store)
    | none => do
      match ← (load blueprints name path).run with
      | .ok wrapper =>
        return (.ok wrapper.composes, { store with loaded := store.loaded.insert path wrapper })
      | .error error => return (.error error, store)

/-! ## 3. Instances -/

/-- The instance that a reference stands for: an instance stands for itself, and for a name a new
one is made. -/
def materialize (store : WrapperStore) (blueprints : Blueprints) (unit : BundleRef) :
    m (Except WrapperError Instance × WrapperStore × Blueprints) :=
  match unit with
  | .live made => pure (.ok made, store, blueprints)
  | .named name => do
    match ← store.resolve blueprints name with
    | (.error error, store) => return (.error error, store, blueprints)
    | (.ok composes, store) =>
      match blueprints.instantiate? composes with
      | some (made, blueprints) => return (.ok made, store, blueprints)
      | none => return (.error (.unresolved name), store, blueprints)

/-! ## 4. Flushing -/

/-- Deletes the records among the given names of a directory, and counts them. -/
def removeRecords (directory : Path) : List String → ExceptT WrapperError m Nat
  | [] => pure 0
  | name :: rest => do
    if Path.extensionOf? name = some "json" then
      guardIo (directory.entry name) (Host.removeFile (directory.entry name))
      return (← removeRecords directory rest) + 1
    else removeRecords directory rest

/-- Deletes every record of a directory. A missing directory holds none. -/
def flushDirectory (directory : Path) : ExceptT WrapperError m Nat := do
  let listed : Except FileError (List String) ← ExceptT.lift (Host.list directory)
  match listed with
  | .error .notFound => return 0
  | .error error => throw (.io directory error)
  | .ok names =>
    let removed ← removeRecords directory names
    ExceptT.lift (Host.debug "flushed unit wrappers"
      [("dir", directory.text), ("removed", toString removed)])
    return removed

/-- Deletes every record and forgets what was read. Gives the number of files deleted. -/
def flush (store : WrapperStore) : m (Except WrapperError Nat × WrapperStore) := do
  match store.directory with
  | none => return (.ok 0, new none)
  | some directory => return (← (flushDirectory directory).run, new (some directory))

end

end WrapperStore

end Graft
