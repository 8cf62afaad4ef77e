/-
Settings: where things are kept, and whether registrations are recorded.

They are read from a file that is named explicitly, or else from the settings file of the current
directory, or else they are the defaults. Relative paths in a file, also the defaults of what the
file leaves out, are seen from the directory of the file.

The mode of the ledger is a word, or a table whose only field has that word as its name and is
empty; the table may also be written with a header or with dots. Each setting is given at most once,
and nothing else may be given.
-/
import Graft.Marks
import Graft.Registry
import Graft.Toml.Document

set_option autoImplicit false

namespace Graft

/-- What a user can configure. -/
structure Settings where
  /-- The file whose change makes all marks void. -/
  lockFile : Path := ⟨"Cargo.lock"⟩
  /-- The file of the marks; none stands for one among the temporary files. -/
  cacheFile : Option Path := none
  /-- The directory for wrapper records; none keeps everything in memory. -/
  wrapperDirectory : Option Path := none
  /-- Where the directories of namespaces are made. -/
  outputDirectory : Path := ⟨"target/weave/analyzers"⟩
  ledger : Ledger.Mode := .enabled
  deriving DecidableEq, Inhabited

/-- Why there are no settings. -/
inductive SettingsError
  | io (path : Path) (error : FileError)
  /-- The file holds no settings. -/
  | malformed (path : Path)
  deriving DecidableEq

/-- The failure in words. -/
def SettingsError.message : SettingsError → String
  | .io path error => "reading " ++ path.text ++ ": " ++ error.message
  | .malformed path => "parsing " ++ path.text ++ ": not a valid configuration"

namespace Settings

/-! ## 1. Forms -/

instance : Json.Codec Settings where
  encode s := .record [("lock_file", .text s.lockFile.text),
    ("cache_file", Json.encode (s.cacheFile.map Path.text)),
    ("wrapper_dir", Json.encode (s.wrapperDirectory.map Path.text)),
    ("output_dir", .text s.outputDirectory.text), ("ledger", Json.encode s.ledger)]
  decode? depth json := do
    let record ← Json.record? .refused
      ["lock_file", "cache_file", "wrapper_dir", "output_dir", "ledger"] depth json
    let defaults : Settings := {}
    return {
      lockFile := ⟨← record.defaulted "lock_file" defaults.lockFile.text⟩
      cacheFile := (← record.defaulted "cache_file" (none : Option String)).map Path.mk
      wrapperDirectory := (← record.defaulted "wrapper_dir" (none : Option String)).map Path.mk
      outputDirectory := ⟨← record.defaulted "output_dir" defaults.outputDirectory.text⟩
      ledger := ← record.defaulted "ledger" defaults.ledger }

/-- The settings that are paths. -/
def pathNames : List String := ["lock_file", "cache_file", "wrapper_dir", "output_dir"]

/-- The name and the text of an assignment of a path. -/
def pathAssignment? (assignment : Toml.Assignment) : Option (String × Path) :=
  match assignment with
  | ⟨[], [name], .text content⟩ =>
    if name ∈ pathNames then some (name, ⟨content⟩) else none
  | _ => none

/-- The mode of the ledger that headers and assignments other than those of paths amount to. -/
def ledgerMode? (headers : List Toml.Key) (assignments : List Toml.Assignment) :
    Option Ledger.Mode :=
  match headers, assignments with
  | [], [] => some .enabled
  | [], [⟨[], ["ledger"], .text word⟩] => Ledger.Mode.ofWord? word
  | [], [⟨[], ["ledger"], .choice word⟩] => Ledger.Mode.ofWord? word
  | [], [⟨[], ["ledger", word], .empty⟩] => Ledger.Mode.ofWord? word
  | [["ledger"]], [⟨["ledger"], [word], .empty⟩] => Ledger.Mode.ofWord? word
  | [["ledger", word]], [] => Ledger.Mode.ofWord? word
  | [["ledger"], ["ledger", word]], [] => Ledger.Mode.ofWord? word
  | [["ledger", word], ["ledger"]], [] => Ledger.Mode.ofWord? word
  | _, _ => none

/-- The settings that a document stands for. -/
def ofDocument? (document : Toml.Document) : Option Settings := do
  let paths := document.assignments.filterMap pathAssignment?
  let others := document.assignments.filter (fun a => (pathAssignment? a).isNone)
  let ledger ← ledgerMode? document.headers others
  if (paths.map Prod.fst).Nodup then
    let defaults : Settings := {}
    some {
      lockFile := (paths.lookup "lock_file").getD defaults.lockFile
      cacheFile := paths.lookup "cache_file"
      wrapperDirectory := paths.lookup "wrapper_dir"
      outputDirectory := (paths.lookup "output_dir").getD defaults.outputDirectory
      ledger := ledger }
  else none

/-! ## 2. Files -/

/-- The name of the file that is looked for. -/
def localFile : String := "weave.toml"

/-- The settings with every path seen from a directory. -/
def relativeTo (base : Path) (settings : Settings) : Settings where
  lockFile := base.join settings.lockFile
  cacheFile := settings.cacheFile.map base.join
  wrapperDirectory := settings.wrapperDirectory.map base.join
  outputDirectory := base.join settings.outputDirectory
  ledger := settings.ledger

section

variable {m : Type → Type} [Monad m] [Host m]

/-- The settings of a file. -/
def load (path : Path) : m (Except SettingsError Settings) := do
  match ← Host.readText path with
  | .error error => return .error (.io path error)
  | .ok text =>
    match (Toml.Document.ofText? text).bind ofDocument? with
    | some settings => return .ok (settings.relativeTo path.directory)
    | none => return .error (.malformed path)

/-- The settings that hold in a directory. A file that is named explicitly has to be there. -/
def discoverFrom (explicit : Option Path) (cwd : Path) : m (Except SettingsError Settings) := do
  match explicit with
  | some path => load (cwd.join path)
  | none =>
    let path := cwd.entry localFile
    if ← Host.isFile path then load path else return .ok {}

/-- The settings that hold in the current directory. -/
def discover (explicit : Option Path) : m (Except SettingsError Settings) := do
  match ← Host.currentDirectory with
  | .error error => return .error (.io ⟨"."⟩ error)
  | .ok cwd => discoverFrom explicit cwd

/-- The file of the marks. -/
def marksFile (settings : Settings) : m Path := do
  match settings.cacheFile with
  | some path => return path
  | none => return Marks.defaultFile (← Host.temporaryDirectory)

end

/-- How a registry is set up under the settings. -/
def options (settings : Settings) : Registry.Options :=
  ⟨settings.wrapperDirectory, settings.ledger⟩

end Settings

end Graft
