/-
The application: artifacts for whatever is declared, as the command line and the settings ask.

The settings are found first, then the declared blueprints are applied to their types, and only
then is the namespace looked at. With `--if-stale` nothing is written while the artifacts are
current, and the user is told so.
-/
import Graft.CommandLine
import Graft.Refresh
import Graft.Settings

set_option autoImplicit false

namespace Graft.Application

/-- Why the application gave up. -/
inductive Failure
  | settings (error : SettingsError)
  /-- A declared blueprint could not be applied. -/
  | declaration (error : RegisterError)
  | space (error : NamespaceError)
  | artifact (error : ArtifactError)
  deriving DecidableEq

/-- What was being done, where that is said. -/
def Failure.context? : Failure → Option String
  | .declaration _ => some "applying registered mixins"
  | .artifact _ => some "generating analyzer artifacts"
  | _ => none

/-- The failure itself in words. -/
def Failure.cause : Failure → String
  | .settings error => error.message
  | .declaration error => error.message
  | .space error => error.message
  | .artifact error => error.message

/-- The failure in words, after what was being done. -/
def Failure.message (failure : Failure) : String :=
  match failure.context? with
  | some context => context ++ ": " ++ failure.cause
  | none => failure.cause

section

variable {m : Type → Type} [Monad m] [Host m]

/-- Writes the artifacts of a ledger for a namespace, below a directory or else below the one of
the settings. Gives no report when they were current and only stale ones were asked for. -/
def generate (ledger : Ledger) (settings : Settings) (space : String) (output : Option Path)
    (ifStale : Bool) : m (Except Failure (Option Artifact.Report)) := do
  match Namespace.parse space with
  | .error error => return .error (.space error)
  | .ok space =>
    let output := output.getD settings.outputDirectory
    if ifStale then
      let refresh : Refresh := ⟨space, output, .new (← settings.marksFile) settings.lockFile⟩
      return (← refresh.runIfDue ledger).1.mapError .artifact
    else
      return ((← (Artifact.generate ledger space output).run).map some).mapError .artifact

/-- The settings that hold for a command line; `configured` is the file that the environment
names. -/
def settings (commandLine : CommandLine) (configured : Option Path) :
    m (Except SettingsError Settings) :=
  match commandLine.settings with
  | some path => Settings.load path
  | none => Settings.discover configured

/-- Does what a command line asks, for the declarations of an application. -/
def run (manifest : Manifest) (commandLine : CommandLine) (configured : Option Path) :
    m (Except Failure Unit) := do
  match ← settings commandLine configured with
  | .error error => return .error (.settings error)
  | .ok settings =>
    match ← Registry.bootstrap manifest settings.options with
    | .error error => return .error (.declaration error)
    | .ok registry =>
      match ← generate registry.ledger settings commandLine.space commandLine.output
          commandLine.ifStale with
      | .error failure => return .error failure
      | .ok (some _) => return .ok ()
      | .ok none =>
        Host.info "analyzer artifacts already current" [("namespace", commandLine.space)]
        return .ok ()

end

end Graft.Application
