/-
Refreshing: artifacts are written again only when they may differ from what is there.

They are due when the ledger, the namespace and the output directory were not seen together since
the lock file last changed, or when the index is missing. A run that fails takes its mark back.
-/
import Graft.Artifact
import Graft.Marks

set_option autoImplicit false

namespace Graft

/-- What keeps the artifacts of one namespace up to date. -/
structure Refresh where
  space : Namespace
  output : Path
  marks : Marks

namespace Refresh

/-- The text that identifies what would be written, and where. -/
def fingerprintText (refresh : Refresh) (ledger : Ledger) : String :=
  ledger.fingerprint ++ "\x00" ++ refresh.space.text ++ "\x00" ++ refresh.output.text

/-- The digest of that text. -/
def fingerprint (refresh : Refresh) (ledger : Ledger) : String :=
  Sha256.hexOfText (refresh.fingerprintText ledger)

section

variable {m : Type → Type} [Monad m] [Host m]

/-- Whether artifacts with a fingerprint are due. The fingerprint counts as seen from now on. -/
def check (refresh : Refresh) (fingerprint : String) : m (Bool × Refresh) := do
  let (fresh, marks) ← refresh.marks.isNew fingerprint
  let refresh := { refresh with marks := marks }
  if fresh then return (true, refresh)
  return (!(← Host.isFile (Artifact.indexPath refresh.space refresh.output)), refresh)

/-- Whether the artifacts of a ledger are due. -/
def due (refresh : Refresh) (ledger : Ledger) : m (Bool × Refresh) :=
  refresh.check (refresh.fingerprint ledger)

/-- Writes the artifacts of a ledger. -/
def run (refresh : Refresh) (ledger : Ledger) : m (Except ArtifactError Artifact.Report) :=
  (Artifact.generate ledger refresh.space refresh.output).run

/-- Takes a mark back after a failure. -/
def retract (refresh : Refresh) (fingerprint : String) : m Refresh := do
  match ← (Marks.forget fingerprint).run.run refresh.marks with
  | (.ok (), marks) => return { refresh with marks := marks }
  | (.error error, marks) =>
    Host.warn "could not un-mark failed analyzer generation" [("cache_error", error.message)]
    return { refresh with marks := marks }

/-- Writes the artifacts of a ledger if they are due. -/
def runIfDue (refresh : Refresh) (ledger : Ledger) :
    m (Except ArtifactError (Option Artifact.Report) × Refresh) := do
  let fingerprint := refresh.fingerprint ledger
  let (due, refresh) ← refresh.check fingerprint
  if due then
    match ← refresh.run ledger with
    | .ok report => return (.ok (some report), refresh)
    | .error error => return (.error error, ← refresh.retract fingerprint)
  else
    Host.debug "analyzer artifacts up to date" [("namespace", refresh.space.text)]
    return (.ok none, refresh)

end

end Refresh

end Graft
