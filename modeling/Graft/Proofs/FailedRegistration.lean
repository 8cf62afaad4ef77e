/-
A registration that fails changes nothing that anybody could call or analyse.

There are many places at which a registration can fail: at the type, at the unit, at any operation on
the file of a record, at what the file holds, at the blueprint that the record names, and once more at
the type. Only after the last of them the table and the ledger change. A registration that is stopped
at the gate does not even use the machine: since the machine is arbitrary, one that counts every use
included, it is enough to say that its state is the same.

The main statement is `Registry.failed_registration_unchanged`.
-/
import Graft.Proofs.Materialization
import Graft.Proofs.Registration
import Graft.World

set_option autoImplicit false

namespace Graft.Registry

variable {σ : Type} [Host (StateM σ)]
variable {r r' : Registry} {s s' : σ} {destination : String} {unit : BundleRef}

/-- The same operations are installed, recorded and to be had. That the ledgers are equal means equal
registrations, an equal fingerprint and an equal next number; that the blueprints are equal means that
no instance was made. -/
structure SameOperations (r r' : Registry) : Prop where
  dispatch : r'.dispatch = r.dispatch
  ledger : r'.ledger = r.ledger
  catalog : r'.catalog = r.catalog
  blueprints : r'.blueprints = r.blueprints

theorem SameOperations.refl (r : Registry) : SameOperations r r := ⟨rfl, rfl, rfl, rfl⟩

theorem eq_destination_of_check {error : GateError}
    (h : r.catalog.check destination = .error error) :
    r.catalog.admits destination = false ∧ error = .destination destination := by
  unfold Catalog.check at h
  split at h
  · exact absurd h (by simp)
  · next hclosed => exact ⟨by simpa using hclosed, (Except.error.inj h).symm⟩

/-- What is known after a registration has failed. -/
def FailedWith (r r' : Registry) (s s' : σ) (destination : String) (unit : BundleRef) :
    RegisterError → Prop
  | .gate (.destination closed) =>
    closed = destination ∧ r.catalog.admits destination = false ∧ r' = r ∧ s' = s
  | .gate (.unit refused) =>
    refused = unit.describe ∧ r.catalog.admits destination = true ∧
      r.blueprints.admits unit = false ∧ r' = r ∧ s' = s
  | .wrapper cause =>
    r.catalog.admits destination = true ∧ r.blueprints.admits unit = true ∧
      SameOperations r r' ∧ (r' = r ∨ ∃ name, cause = .unresolved name)

theorem failedWith_of_register {error : RegisterError}
    (h : (r.register destination unit : StateM σ _).run s = ((.error error, r'), s')) :
    FailedWith r r' s s' destination unit error := by
  rcases register_cases h with ⟨cause, hgate, hcause, rfl, rfl⟩ |
    ⟨hgate, made, wrappers, blueprints, s₁, hmade, hend⟩
  · obtain rfl := Except.error.inj hcause
    rcases gate_cases hgate with ⟨hclosed, hwhy⟩ | ⟨hopen, hrefused, hwhy⟩ | ⟨-, -, hok⟩
    · obtain rfl := Except.error.inj hwhy
      exact ⟨rfl, hclosed, rfl, rfl⟩
    · obtain rfl := Except.error.inj hwhy
      exact ⟨rfl, hopen, hrefused, rfl, rfl⟩
    · exact absurd hok (by simp)
  · obtain ⟨hopen, hadmitted⟩ := admits_of_gate hgate
    rcases hend with ⟨cause, rfl, hcause, rfl, rfl⟩ | ⟨i, -, hok, -⟩
    · -- Behind the gate only producing the instance can fail, and that leaves the blueprints alone.
      obtain rfl := Except.error.inj hcause
      obtain ⟨rfl, hstore⟩ := WrapperStore.unchanged_of_materialize_error hmade
      refine ⟨hopen, hadmitted, ⟨rfl, rfl, rfl, rfl⟩, ?_⟩
      exact hstore.imp_left fun hsame => by rw [hsame]
    · exact absurd hok (by simp)

/-- **A failed registration is atomic.** On any machine and from any registry: if registering a unit
fails, the table and the ledger are what they were and no instance was made; and if it fails at the
gate, where the destination is looked at before the unit, nothing has changed in the registry and the
machine was not used. The same holds for registering a single handler, and for an installation that
finds the type closed at the last moment. -/
theorem failed_registration_unchanged (r : Registry) (s : σ) (destination : String) :
    (∀ unit error r' s',
      (r.register destination unit : StateM σ _).run s = ((.error error, r'), s') →
        SameOperations r r' ∧ FailedWith r r' s s' destination unit error) ∧
    (∀ name handler error r' s',
      (r.registerOperation destination name handler : StateM σ _).run s
          = ((.error error, r'), s') →
        r' = r ∧ s' = s ∧ error = .destination destination) ∧
    ∀ handlers source error s',
      (r.install destination handlers source : StateM σ _).run s = (.error error, s') →
        s' = s ∧ error = .destination destination := by
  refine ⟨?_, ?_, ?_⟩
  · intro unit error r' s' h
    have hfailed := failedWith_of_register h
    refine ⟨?_, hfailed⟩
    rcases error with (_ | _) | _
    · obtain ⟨-, -, rfl, -⟩ := hfailed
      exact .refl _
    · obtain ⟨-, -, -, rfl, -⟩ := hfailed
      exact .refl _
    · exact hfailed.2.2.1
  · intro name handler error r' s' h
    rcases registerOperation_cases h with ⟨cause, hcheck, hcause, rfl, rfl⟩ | ⟨-, hok, -⟩
    · obtain rfl := Except.error.inj hcause
      exact ⟨rfl, rfl, (eq_destination_of_check hcheck).2⟩
    · exact absurd hok (by simp)
  · intro handlers source error s' h
    rcases install_cases h with ⟨cause, hcheck, hcause, rfl⟩ | ⟨-, hok⟩
    · obtain rfl := Except.error.inj hcause
      exact ⟨rfl, (eq_destination_of_check hcheck).2⟩
    · exact absurd hok (by simp)

/-- A bundle with one public operation that does nothing. -/
def oneOperation (name operation : String) : Bundle :=
  ⟨name, [⟨operation, .publicAccess, false, .operation {} fun _ _ _ => .done (.ok .null)⟩]⟩

/-- A registry with one type, a composable blueprint and a concrete one, which keeps records. -/
def gallery : Registry :=
  (((ofManifest .empty ⟨some ⟨"w"⟩, .enabled⟩).declare "T" true).define "Greeter" .composable
    fun _ => oneOperation "Greeter" "hello").define "Panel" .concrete
      fun _ => oneOperation "Panel" "paint"

/-- A machine that holds the record for one name. -/
def recordHolder (name : String) (content : ByteArray) : World where
  tree := (FileTree.empty.insert ["w"] .directory).insert ["w", WrapperStore.fileName name]
    (.file content)
  cwd := []
  temporary := ⟨"tmp"⟩
  events := []

/-- Whether a registration found a record that is none. -/
def isCorrupt : Except RegisterError Nat → Bool
  | .error (.wrapper (.corrupt _)) => true
  | _ => false

theorem exists_of_isCorrupt {result : Except RegisterError Nat} (h : isCorrupt result = true) :
    ∃ path, result = .error (.wrapper (.corrupt path)) := by
  unfold isCorrupt at h
  split at h
  · next path => exact ⟨path, rfl⟩
  · exact absurd h (by simp)

/-- A record that cannot be read stops a registration behind the gate, a closed type before it. -/
theorem failed_registration_unchanged_gallery :
    (∃ path r' w', (gallery.register "T" (.named "Greeter") : StateM World _).run
        (recordHolder "Greeter" "?".toUTF8) = ((.error (.wrapper (.corrupt path)), r'), w') ∧
      SameOperations gallery r' ∧ r' = gallery) ∧
    ∃ r' w', (gallery.register "F" (.named "Panel") : StateM World _).run
        (recordHolder "Greeter" "?".toUTF8) = ((.error (.gate (.destination "F")), r'), w') ∧
      r' = gallery ∧ w' = recordHolder "Greeter" "?".toUTF8 := by
  constructor
  · rcases hrun : (gallery.register "T" (.named "Greeter") : StateM World _).run
      (recordHolder "Greeter" "?".toUTF8) with ⟨⟨result, r'⟩, w'⟩
    have hcorrupt : isCorrupt ((gallery.register "T" (.named "Greeter") : StateM World _).run
        (recordHolder "Greeter" "?".toUTF8)).1.1 = true := by decide +kernel
    rw [hrun] at hcorrupt
    obtain ⟨path, rfl⟩ := exists_of_isCorrupt hcorrupt
    obtain ⟨hsame, -, -, -, hall⟩ :=
      (failed_registration_unchanged gallery _ "T").1 _ _ _ _ hrun
    exact ⟨path, r', w', rfl, hsame, hall.resolve_right (by simp)⟩
  · have hrun : (gallery.register "F" (.named "Panel") : StateM World _).run
        (recordHolder "Greeter" "?".toUTF8)
          = ((.error (.gate (.destination "F")), gallery), recordHolder "Greeter" "?".toUTF8) :=
      rfl
    obtain ⟨-, -, -, hr, hw⟩ := (failed_registration_unchanged gallery _ "F").1 _ _ _ _ hrun
    exact ⟨_, _, hrun, hr, hw⟩

end Graft.Registry
