/-
Whether registrations are recorded cannot be told from calling.

A registry is muted by taking its ledger away and leaving a disabled one without records. Muting
commutes with everything that a registry does: what a muted registry answers, does to the machine and
looks like afterwards is what the registry answers, does and looks like, muted. That is an equation
between two runs and not a relation to be kept up between them, so it goes through scripts by plain
induction, whatever calls, failures and panics they are made of, and it says that the records of the
two runs are one (`Registry.course_muted`).

No request of a script reads the ledger, which is the only way in which a body could tell.

The main statement is `Registry.ledger_mode_unobservable`.
-/
import Mathlib.Data.List.Forall2
import Graft.Proofs.Moments

set_option autoImplicit false

namespace Graft

namespace Registry

/-! ## 1. Taking the ledger away -/

/-- The registry with a disabled ledger instead of its own. -/
def muted (r : Registry) : Registry := { r with ledger := .new .disabled }

/-- A disabled ledger records nothing, so a batch leaves it as it was. -/
theorem foldl_recordOne_disabled (destination : String) (source : Provenance)
    (handlers : List (String × Handler)) :
    handlers.foldl (recordOne destination source) (.new .disabled) = .new .disabled := by
  induction handlers with
  | nil => rfl
  | cons entry rest ih => exact ih

/-- The table changes as it would, and the operations that are replaced are the same. -/
theorem installed_muted (r : Registry) (destination : String) (handlers : List (String × Handler))
    (source : Provenance) :
    r.muted.installed destination handlers source
      = ((r.installed destination handlers source).1,
          (r.installed destination handlers source).2.muted) := by
  unfold installed muted
  dsimp only
  rw [foldl_recordOne_disabled]

section

variable {σ α : Type}

/-- An outcome with its registry muted. -/
def mute (outcome : (α × Registry) × σ) : (α × Registry) × σ :=
  ((outcome.1.1, outcome.1.2.muted), outcome.2)

/-- A state with its registry muted. -/
def muteState (state : Registry × σ) : Registry × σ := (state.1.muted, state.2)

/-- A call is muted if the scripts of its operations are. -/
theorem invokeWith_muted {run : Script → Registry → StateM σ (Option Ending × Registry)}
    (hrun : ∀ script r s, (run script r.muted).run s = mute ((run script r).run s))
    (destination name : String) (receiver : Option Value) (arguments : List Value) (r : Registry)
    (s : σ) :
    (invokeWith run destination name receiver arguments r.muted).run s
      = mute ((invokeWith run destination name receiver arguments r).run s) := by
  unfold invokeWith
  rw [show r.muted.dispatch = r.dispatch from rfl]
  cases r.dispatch.get? destination name with
  | none => rfl
  | some op =>
    dsimp only
    unfold attemptWith
    cases op.handler.signature.check arguments with
    | error fault => rfl
    | ok _ =>
      simp only [run_bind, hrun]
      rfl

variable [Host (StateM σ)]

/-! ## 2. Requests -/

theorem install_muted (r : Registry) (destination : String) (handlers : List (String × Handler))
    (source : Provenance) (s : σ) :
    (r.muted.install destination handlers source : StateM σ _).run s
      = (((r.install destination handlers source : StateM σ _).run s).1.map muted,
          ((r.install destination handlers source : StateM σ _).run s).2) := by
  unfold install
  rw [installed_muted, show r.muted.catalog = r.catalog from rfl]
  cases r.catalog.check destination <;> rfl

theorem register_muted (r : Registry) (destination : String) (unit : BundleRef) (s : σ) :
    (r.muted.register destination unit : StateM σ _).run s
      = mute ((r.register destination unit : StateM σ _).run s) := by
  unfold register
  rw [show r.muted.gate destination unit = r.gate destination unit from rfl]
  cases r.gate destination unit with
  | error error => rfl
  | ok _ =>
    rcases hmade : (r.wrappers.materialize r.blueprints unit : StateM σ _).run s
      with ⟨⟨error | i, wrappers, blueprints⟩, s₁⟩
    · simp only [run_bind, hmade, show r.muted.wrappers = r.wrappers from rfl,
        show r.muted.blueprints = r.blueprints from rfl]
      rfl
    · simp only [run_bind, hmade, show r.muted.wrappers = r.wrappers from rfl,
        show r.muted.blueprints = r.blueprints from rfl]
      -- Replacing the records in use and the blueprints is no matter of the ledger either.
      have hinstall := install_muted { r with wrappers := wrappers, blueprints := blueprints }
        destination i.interface.entries (provenance unit i) s₁
      rw [show ({ r.muted with wrappers := wrappers, blueprints := blueprints } : Registry)
        = muted { r with wrappers := wrappers, blueprints := blueprints } from rfl, hinstall]
      rcases (install { r with wrappers := wrappers, blueprints := blueprints } destination
        i.interface.entries (provenance unit i) : StateM σ _).run s₁ with ⟨error | r', s₂⟩ <;> rfl

theorem registerOperation_muted (r : Registry) (destination name : String) (handler : Handler)
    (s : σ) :
    (r.muted.registerOperation destination name handler : StateM σ _).run s
      = mute ((r.registerOperation destination name handler : StateM σ _).run s) := by
  unfold registerOperation
  rw [show r.muted.catalog = r.catalog from rfl]
  cases r.catalog.check destination with
  | error error => rfl
  | ok _ =>
    simp only [run_bind]
    rw [install_muted]
    rcases (r.install destination [(name, handler)] .handler : StateM σ _).run s
      with ⟨error | r', s₁⟩ <;> rfl

/-! ## 3. Runs -/

/-- The run lemma. The induction is on the number of steps, as every call inside of a run is a
shorter run. -/
theorem run_muted (steps : Nat) (script : Script) (r : Registry) (s : σ) :
    (run steps script r.muted : StateM σ _).run s
      = mute ((run steps script r : StateM σ _).run s) := by
  induction steps generalizing script r s with
  | zero => rfl
  | succ steps ih =>
    cases script with
    | done outcome => rfl
    | panic payload => rfl
    | invoke destination name receiver arguments next =>
      simp only [run, run_bind, invokeWith_muted ih]
      rcases (invokeWith (run steps) destination name receiver arguments r : StateM σ _).run s
        with ⟨⟨_ | result, r₁⟩, s₁⟩
      · rfl
      · exact ih (next result) r₁ s₁
    | register destination unit next =>
      simp only [run, run_bind, register_muted]
      exact ih _ _ _
    | registerOperation destination name handler next =>
      simp only [run, run_bind, registerOperation_muted]
      exact ih _ _ _
    | reset next => exact ih next r.reset s

theorem invoke_muted (steps : Nat) (destination name : String) (receiver : Option Value)
    (arguments : List Value) (r : Registry) (s : σ) :
    (r.muted.invoke steps destination name receiver arguments : StateM σ _).run s
      = mute ((r.invoke steps destination name receiver arguments : StateM σ _).run s) :=
  invokeWith_muted (run_muted steps) destination name receiver arguments r s

/-- One use: the reply is the same. -/
theorem serve_muted (steps : Nat) (use : Use) (r : Registry) (s : σ) :
    (use.serve steps r.muted : StateM σ _).run s
      = mute ((use.serve steps r : StateM σ _).run s) := by
  cases use with
  | declare name extensible => rfl
  | define name kind make => rfl
  | register destination unit =>
    simp only [Use.serve, run_bind, register_muted]
    rfl
  | registerOperation destination name handler =>
    simp only [Use.serve, run_bind, registerOperation_muted]
    rfl
  | invoke destination name receiver arguments =>
    simp only [Use.serve, run_bind, invoke_muted]
    rfl
  | flushWrappers => rfl
  | reset => rfl

/-! ## 4. Records -/

end

end Registry

/-- A moment with its registries muted. -/
def Moment.muted {σ : Type} (m : Moment σ) : Moment σ :=
  ⟨m.deed, Registry.muteState m.before, Registry.muteState m.after⟩

section

open Registry

variable {σ : Type} [Host (StateM σ)]

theorem Use.moment_muted (use : Use) (r : Registry) (s : σ) :
    use.moment r.muted s = (use.moment r s).muted := by
  unfold Use.moment
  rw [serve_muted]
  rfl

theorem Registry.callMomentsWith_muted {inside : Script → Registry → σ → List (Moment σ)}
    (hinside : ∀ script r s, inside script r.muted s = (inside script r s).map Moment.muted)
    (steps : Nat) (destination name : String) (receiver : Option Value) (arguments : List Value)
    (r : Registry) (s : σ) :
    callMomentsWith inside steps destination name receiver arguments r.muted s
      = (callMomentsWith inside steps destination name receiver arguments r s).map
          Moment.muted := by
  have hinner : innerMoments inside destination name receiver arguments r.muted s
      = (innerMoments inside destination name receiver arguments r s).map Moment.muted := by
    unfold innerMoments
    rw [show r.muted.dispatch = r.dispatch from rfl]
    cases r.dispatch.get? destination name with
    | none => rfl
    | some op =>
      dsimp only
      cases op.handler.signature.check arguments with
      | error fault => rfl
      | ok _ => exact hinside _ r s
  unfold callMomentsWith
  rw [invoke_muted, hinner, List.map_cons, List.map_append]
  rfl

theorem Script.moments_muted (steps : Nat) (script : Script) (r : Registry) (s : σ) :
    script.moments steps r.muted s = (script.moments steps r s).map Moment.muted := by
  induction steps generalizing script r s with
  | zero => rfl
  | succ steps ih =>
    cases script with
    | done outcome => rfl
    | panic payload => rfl
    | invoke destination name receiver arguments next =>
      simp only [moments, callMomentsWith_muted ih, invoke_muted, List.map_append]
      rcases (r.invoke steps destination name receiver arguments : StateM σ _).run s
        with ⟨⟨_ | result, r₁⟩, s₁⟩
      · rfl
      · exact congrArg _ (ih (next result) r₁ s₁)
    | register destination unit next =>
      simp only [moments, Use.moment_muted, register_muted, List.map_cons]
      exact congrArg _ (ih _ _ _)
    | registerOperation destination name handler next =>
      simp only [moments, Use.moment_muted, registerOperation_muted, List.map_cons]
      exact congrArg _ (ih _ _ _)
    | reset next =>
      simp only [moments, Use.moment_muted, List.map_cons]
      exact congrArg _ (ih next r.reset s)

theorem Use.moments_muted (steps : Nat) (use : Use) (r : Registry) (s : σ) :
    use.moments steps r.muted s = (use.moments steps r s).map Moment.muted := by
  cases use with
  | invoke destination name receiver arguments =>
    exact callMomentsWith_muted (Script.moments_muted steps) steps destination name receiver
      arguments r s
  | _ => exact congrArg (fun m => [m]) (Use.moment_muted _ r s)

namespace Registry

/-- The record of a muted registry is the muted record. -/
theorem course_muted (turns : List (Turn σ)) (r : Registry) (s : σ) :
    course turns r.muted s = (course turns r s).map Moment.muted := by
  induction turns generalizing r s with
  | nil => rfl
  | cons turn rest ih =>
    unfold course
    simp only [serve_muted, Use.moments_muted, List.map_cons, List.map_append]
    rcases (turn.use.serve turn.steps r : StateM σ _).run (turn.meanwhile s)
      with ⟨⟨reply, r₁⟩, s₁⟩
    -- The reply is the same, so both records go on or both end here.
    refine congrArg _ (congrArg _ ?_)
    show (if reply.finished then course rest r₁.muted s₁ else [])
      = (if reply.finished then course rest r₁ s₁ else []).map Moment.muted
    cases reply.finished with
    | true => exact ih r₁ s₁
    | false => rfl

/-! ## 5. Two registries that differ in nothing but the mode -/

/-- Nobody who calls operations and asks for them can tell two registries apart. -/
structure LooksLike (r r' : Registry) : Prop where
  /-- The same operations are installed: they have the same names in the same order, ... -/
  names : ∀ destination, r'.dispatch.names destination = r.dispatch.names destination
  contains : ∀ destination name,
    r'.dispatch.contains destination name = r.dispatch.contains destination name
  /-- ... and behind each name is the same operation. -/
  operation : ∀ destination name,
    r'.dispatch.get? destination name = r.dispatch.get? destination name
  /-- The same types take operations, the same units may be registered, and the same wrapper records
  are in use. -/
  catalog : r'.catalog = r.catalog
  blueprints : r'.blueprints = r.blueprints
  wrappers : r'.wrappers = r.wrappers

theorem looksLike_muted (r : Registry) : LooksLike r r.muted :=
  ⟨fun _ => rfl, fun _ _ => rfl, fun _ _ => rfl, rfl, rfl, rfl⟩

/-- The ledger of a registry that records nothing: it has no entry, and the fingerprint of a ledger
that has just been made. -/
structure Unrecorded (r : Registry) : Prop where
  mode : r.ledger.mode = .disabled
  log : r.ledger.log = []
  fingerprint : ∀ mode, r.ledger.fingerprint = (Ledger.new mode).fingerprint

theorem unrecorded_muted (r : Registry) : r.muted.Unrecorded :=
  ⟨rfl, rfl, fun _ => Ledger.fingerprint_congr rfl⟩

/-- Two moments that are the same but for what is recorded. -/
structure SameMoment (m m' : Moment σ) : Prop where
  /-- The same request with the same reply, or the same call that begins or ends with the same
  result. -/
  deed : m'.deed = m.deed
  before : LooksLike m.before.1 m'.before.1
  after : LooksLike m.after.1 m'.after.1
  /-- The machine holds the same files. -/
  machine : m'.before.2 = m.before.2 ∧ m'.after.2 = m.after.2

/-- **The mode of the ledger cannot be observed.** Two registries are made of the same manifest over
the same directory, one with an enabled ledger and one with a disabled one, and put to the same
uses, whatever others do to the machine in between. Then the same happens to both, moment by moment
and also within calls: the same replies to registrations, calls and flushes, the same operations
to be had, the same state of the machine. All the time the disabled ledger is empty. -/
theorem ledger_mode_unobservable (manifest : Manifest) (directory : Option Path)
    (turns : List (Turn σ)) (s : σ) :
    List.Forall₂ SameMoment (course turns (ofManifest manifest ⟨directory, .enabled⟩) s)
        (course turns (ofManifest manifest ⟨directory, .disabled⟩) s) ∧
      ∀ m ∈ course turns (ofManifest manifest ⟨directory, .disabled⟩) s,
        m.before.1.Unrecorded ∧ m.after.1.Unrecorded := by
  rw [show ofManifest manifest ⟨directory, .disabled⟩
    = (ofManifest manifest ⟨directory, .enabled⟩).muted from rfl, course_muted]
  constructor
  · rw [List.forall₂_map_right_iff, List.forall₂_same]
    intro m _
    exact ⟨rfl, looksLike_muted _, looksLike_muted _, rfl, rfl⟩
  · rw [List.forall_mem_map]
    intro m _
    exact ⟨unrecorded_muted _, unrecorded_muted _⟩

end Registry

end

end Graft
