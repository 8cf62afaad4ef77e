/-
What marks do to a machine.

Questions to marks read files, make directories, replace and remove the file of the marks, and log.
Whatever relation between the states of a machine these respect, every question respects, however it
ends: what it finds out and whether it fails does not matter.
-/
import Graft.Marks
import Graft.Proofs.Running

set_option autoImplicit false

namespace Graft.Marks

variable {σ : Type} [Host (StateM σ)]

/-- A relation that everything respects that marks with a given file do to a machine. -/
structure Respected (R : σ → σ → Prop) (file : Path) : Prop where
  composable : Composable R
  readBytes : ∀ path, Keeps R (Host.readBytes path : StateM σ _)
  createDirectories : ∀ path, Keeps R (Host.createDirectories path : StateM σ _)
  replaceFile : ∀ content, Keeps R (Host.replaceFile file content : StateM σ _)
  removeFile : Keeps R (Host.removeFile file : StateM σ _)
  log : ∀ event, Keeps R (Host.log event : StateM σ _)

/-- Marks keep their file, and the machine is related to what it was. -/
def Owned (R : σ → σ → Prop) (file : Path) (start : σ) (marks : Marks) (s : σ) : Prop :=
  marks.file = file ∧ R start s

variable {R : σ → σ → Prop} {file : Path} {start : σ}

/-- The steps respect a relation, whatever they return. -/
abbrev Frames {α : Type} (R : σ → σ → Prop) (file : Path) (start : σ) (step : Step (StateM σ) α) :
    Prop := Assures (Owned R file start) step fun _ => True

/-! ## 1. Steps -/

theorem frames_host {α : Type} (hR : Respected R file) {action : StateM σ α} (h : Keeps R action) :
    Frames R file start (host action) :=
  Assures.lift fun _ _ _ _ howned hrun =>
    ⟨⟨howned.1, hR.composable.trans howned.2 (h.of_run hrun)⟩, trivial⟩

omit [Host (StateM σ)] in
theorem assures_get : Assures (Owned R file start) (get : Step (StateM σ) Marks)
    fun marks => marks.file = file :=
  Assures.get fun _ _ howned => howned.1

omit [Host (StateM σ)] in
/-- Marks in memory are nothing that the machine knows of. -/
theorem frames_modify_seen (f : Marks → Option (OrderedSet String)) :
    Frames R file start (modify fun marks => { marks with seen := f marks }) :=
  Assures.modify fun _ _ howned => howned

theorem frames_flush (hR : Respected R file) : Frames R file start flush := by
  refine Assures.bind (frames_modify_seen fun _ => some .empty) fun _ _ => ?_
  refine Assures.bind assures_get fun marks hfile => ?_
  rw [hfile]
  refine Assures.bind (frames_host hR hR.removeFile) fun removed _ => ?_
  split
  · exact Assures.pure trivial
  · exact Assures.pure trivial
  · exact Assures.bind assures_get fun _ _ => Assures.throw _

theorem frames_hydrate (hR : Respected R file) : Frames R file start hydrate := by
  refine Assures.bind assures_get fun marks _ => ?_
  refine Assures.bind (frames_host hR (hR.readBytes _)) fun read _ => ?_
  split
  · exact Assures.pure trivial
  · exact Assures.throw _
  · split
    · exact Assures.pure trivial
    · refine Assures.bind (frames_host hR (hR.log _)) fun _ _ => ?_
      exact Assures.bind (frames_flush hR) fun _ _ => Assures.pure trivial

theorem frames_storage (hR : Respected R file) : Frames R file start storage := by
  refine Assures.bind assures_get fun marks _ => ?_
  split
  · exact Assures.pure trivial
  · refine Assures.bind (frames_hydrate hR) fun seen _ => ?_
    refine Assures.bind (frames_modify_seen fun _ => some seen) fun _ _ => ?_
    exact Assures.pure trivial

theorem frames_guardIo {α : Type} (hR : Respected R file)
    {action : StateM σ (Except FileError α)} (h : Keeps R action) :
    Frames R file start (guardIo action) := by
  refine Assures.bind (frames_host hR h) fun result _ => ?_
  split
  · exact Assures.pure trivial
  · exact Assures.bind assures_get fun _ _ => Assures.throw _

theorem frames_persist (hR : Respected R file) : Frames R file start persist := by
  refine Assures.bind assures_get fun marks hfile => ?_
  rw [hfile]
  refine Assures.bind (frames_guardIo hR (hR.createDirectories _)) fun _ _ => ?_
  exact frames_guardIo hR (hR.replaceFile _)

theorem frames_synchronize (hR : Respected R file) (mark : String) :
    Frames R file start (synchronize mark) := by
  refine Assures.bind (frames_storage hR) fun seen _ => ?_
  refine Assures.bind (frames_modify_seen fun _ => some (seen.insert mark)) fun _ _ => ?_
  exact frames_persist hR

/-! ## 2. Questions -/

theorem frames_forget (hR : Respected R file) (mark : String) :
    Frames R file start (forget mark) := by
  refine Assures.bind (frames_storage hR) fun seen _ => ?_
  split
  · refine Assures.bind (frames_modify_seen fun _ => some (seen.erase mark)) fun _ _ => ?_
    exact frames_persist hR
  · exact Assures.pure trivial

theorem frames_check (hR : Respected R file) (indicator fingerprint : String) :
    Frames R file start (check indicator fingerprint) := by
  -- The second half of a check is the same whether or not the marks were flushed before.
  have hask : Frames R file start (do
      if (← storage).contains fingerprint then return false
      synchronize fingerprint
      return true) := by
    refine Assures.bind (frames_storage hR) fun seen _ => ?_
    split
    · exact Assures.pure trivial
    · exact Assures.bind (frames_synchronize hR _) fun _ _ => Assures.pure trivial
  refine Assures.bind (frames_storage hR) fun seen _ => ?_
  simp only
  split
  · refine Assures.bind (frames_host hR (hR.log _)) fun _ _ => ?_
    refine Assures.bind (frames_flush hR) fun _ _ => ?_
    exact Assures.bind (frames_synchronize hR _) fun _ _ => hask
  · exact hask

variable {marks marks' : Marks} {fingerprint : String} {s s' : σ}

/-- A question whether a fingerprint is new respects what its steps respect. -/
theorem frame_isNew (hR : Respected R file) (hfile : marks.file = file) {fresh : Bool}
    (h : (marks.isNew fingerprint : StateM σ _).run s = ((fresh, marks'), s')) :
    marks'.file = file ∧ R s s' := by
  rw [isNew, run_bind] at h
  have hread : R s ((Host.readBytes marks.lockFile : StateM σ _).run s).2 := hR.readBytes _ s
  split at h
  · -- The lock file cannot be read: this is logged, and nothing else happens.
    obtain ⟨⟨-, rfl⟩, rfl⟩ := (Prod.mk.inj h).imp_left Prod.mk.inj
    exact ⟨hfile, hR.composable.trans hread (hR.log _ _)⟩
  · next bytes _ =>
    split at h
    · obtain ⟨⟨-, rfl⟩, rfl⟩ := (Prod.mk.inj h).imp_left Prod.mk.inj
      exact ⟨hfile, hread⟩
    · rw [run_bind] at h
      rcases hcheck : ((check (Sha256.hexDigest bytes) fingerprint :
        Step (StateM σ) Bool).run.run marks).run
          ((Host.readBytes marks.lockFile : StateM σ _).run s).2 with ⟨⟨result, marks₁⟩, s₁⟩
      rw [hcheck] at h
      have howned : Owned R file s marks _ := ⟨hfile, hread⟩
      obtain ⟨⟨hfile₁, hkept⟩, -⟩ := frames_check hR _ _ howned hcheck
      cases result with
      | ok answer =>
        obtain ⟨⟨-, rfl⟩, rfl⟩ := (Prod.mk.inj h).imp_left Prod.mk.inj
        exact ⟨hfile₁, hkept⟩
      | error error =>
        obtain ⟨⟨-, rfl⟩, rfl⟩ := (Prod.mk.inj h).imp_left Prod.mk.inj
        exact ⟨hfile₁, hR.composable.trans hkept (hR.log _ _)⟩

end Graft.Marks
