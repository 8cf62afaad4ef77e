/-
Artifacts: the methods of a ledger, written for a type checker.

Under the directory of a namespace every destination gets a file with its methods, and an index
lists the destinations with their files. Before that the old JSON files of the directory are
deleted; its subdirectories are left alone.

The file of a destination is named after it, made harmless. A name that is taken, or that starts
with the underscore reserved for the index, is followed by the start of the destination's digest.
-/
import Graft.Method
import Graft.Namespace

set_option autoImplicit false

namespace Graft

/-- Why artifacts could not be written. -/
inductive ArtifactError
  | space (error : NamespaceError)
  | io (path : Path) (error : FileError)
  deriving DecidableEq

/-- The failure in words. -/
def ArtifactError.message : ArtifactError → String
  | .space error => error.message
  | .io path error => "writing " ++ path.text ++ ": " ++ error.message

namespace Artifact

/-! ## 1. File names -/

/-- The name of the index. -/
def indexFile : String := "_index.json"

/-- A character of a stem: letters, digits, underscores, hyphens and dots of ASCII stay. -/
def stemChar (c : Char) : Char :=
  if c.isAlphanum || c = '_' || c = '-' || c = '.' then c else '_'

/-- The readable stem of a destination: pairs of colons become dots. -/
def stem (destination : String) : String :=
  String.ofList ((Text.replacePair ':' ':' ['.'] destination.toList).map stemChar)

/-- The stem that a destination gets when some are taken. -/
def claim (taken : List String) (destination : String) : String :=
  let readable := stem destination
  if readable.toList.head? = some '_' ∨ readable ∈ taken then
    readable ++ "-" ++ Sha256.shortHexOfText destination
  else readable

/-- The stems of destinations that are claimed one after the other. -/
def claimAll (taken : List String) : List String → List String
  | [] => []
  | destination :: rest =>
    let claimed := claim taken destination
    claimed :: claimAll (claimed :: taken) rest

/-! ## 2. Contents -/

/-- What is written about one destination. -/
structure Sheet where
  destination : String
  /-- The name of its file. -/
  file : String
  methods : List Method

/-- The destinations of a ledger that get a sheet: one without methods would get none, and no stem. -/
def described (ledger : Ledger) : List String :=
  ledger.destinations.filter (fun destination => !(ledger.methods destination).isEmpty)

/-- Every destination gets a sheet, since it was registered with something. -/
theorem described_eq (ledger : Ledger) : described ledger = ledger.destinations := by
  refine List.filter_eq_self.mpr fun destination hdestination => ?_
  simpa using ledger.methods_ne_nil hdestination

/-- The sheets of a ledger, in the order of its destinations. -/
def sheets (ledger : Ledger) : List Sheet :=
  ((described ledger).zip (claimAll [] (described ledger))).map (fun (destination, stem) =>
    ⟨destination, stem ++ ".json", ledger.methods destination⟩)

/-- A JSON tree as the content of a file, which ends with a line feed. -/
def content (json : Json) : ByteArray := (json.pretty ++ "\n").toUTF8

/-- The content of the file of a sheet. -/
def Sheet.json (space : Namespace) (sheet : Sheet) : Json :=
  .record [("namespace", .text space.text), ("destination", .text sheet.destination),
    ("methods", Json.encode sheet.methods)]

/-- The entry of a sheet in the index. -/
def Sheet.entry (sheet : Sheet) : Json :=
  .record [("destination", .text sheet.destination), ("file", .text sheet.file),
    ("methods", .ofNat sheet.methods.length)]

/-- The content of the index. -/
def indexJson (space : Namespace) (fingerprint : String) (sheets : List Sheet) : Json :=
  .record [("namespace", .text space.text), ("fingerprint", .text fingerprint),
    ("destinations", .array (sheets.map Sheet.entry))]

/-! ## 3. Writing -/

/-- The outcome of a run. -/
structure Report where
  directory : Path
  /-- The files of the destinations, in their order; the index is not among them. -/
  files : List Path
  /-- The number of methods in all files. -/
  methods : Nat
  /-- The fingerprint of the ledger that was written. -/
  fingerprint : String
  deriving DecidableEq

/-- The directory of a namespace. -/
def directory (space : Namespace) (output : Path) : Path := output.join space.path

/-- The path of the index of a namespace. -/
def indexPath (space : Namespace) (output : Path) : Path :=
  (directory space output).entry indexFile

section

variable {m : Type → Type} [Monad m] [Host m]

/-- Turns a failed file operation into an error that names a path. -/
def guardIo {α : Type} (path : Path) (action : m (Except FileError α)) :
    ExceptT ArtifactError m α :=
  ExceptT.mk (do return (← action).mapError (ArtifactError.io path))

/-- Deletes the regular files with the extension `json` among the given names. -/
def removeOld (directory : Path) : List String → ExceptT ArtifactError m Unit
  | [] => pure ()
  | name :: rest => do
    let path := directory.entry name
    if (← ExceptT.lift (Host.isFile path)) && Path.extensionOf? name = some "json" then
      guardIo path (Host.removeFile path)
    removeOld directory rest

/-- Clears a directory of earlier artifacts. A missing directory is clear. -/
def clear (directory : Path) : ExceptT ArtifactError m Unit := do
  let listed : Except FileError (List String) ← ExceptT.lift (Host.list directory)
  match listed with
  | .error .notFound => pure ()
  | .error error => throw (.io directory error)
  | .ok names => removeOld directory names

/-- Writes the sheets one after the other. -/
def writeSheets (space : Namespace) (directory : Path) : List Sheet →
    ExceptT ArtifactError m Unit
  | [] => pure ()
  | sheet :: rest => do
    let path := directory.entry sheet.file
    guardIo path (Host.writeFile path (content (sheet.json space)))
    ExceptT.lift (Host.debug "wrote analyzer artifact" [("destination", sheet.destination),
      ("methods", toString sheet.methods.length), ("path", path.text)])
    writeSheets space directory rest

/-- Writes the artifacts of a ledger for a namespace below an output directory. -/
def generate (ledger : Ledger) (space : Namespace) (output : Path) :
    ExceptT ArtifactError m Report := do
  let directory := directory space output
  clear directory
  guardIo directory (Host.createDirectories directory)
  let sheets := sheets ledger
  writeSheets space directory sheets
  let index := indexPath space output
  guardIo index (Host.writeFile index (content (indexJson space ledger.fingerprint sheets)))
  let report : Report := {
    directory := directory
    files := sheets.map (fun sheet => directory.entry sheet.file)
    methods := sheets.foldr (fun sheet count => sheet.methods.length + count) 0
    fingerprint := ledger.fingerprint }
  ExceptT.lift (Host.info "generated analyzer artifacts" [("namespace", space.text),
    ("directory", directory.text), ("destinations", toString report.files.length),
    ("methods", toString report.methods)])
  return report

end

end Artifact

end Graft
