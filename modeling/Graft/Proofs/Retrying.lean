/-
Generations that fail are tried again.

A run that fails leaves no index, and without an index artifacts are due, whatever the marks say. The
index is deleted first, along with the other old artifacts, and written last, so a run that breaks off
in between has deleted it already; taking the mark of the run back is not needed for this and may fail
itself.

One thing can get in the way. The path of the output may lead through a directory that is missing and
out of it again. Then nothing is found to clear, the missing directory is made, and an index that was
out of reach before is in reach afterwards: `Refresh.failed_run_leaves_index`. This excepted, the
statement holds on every machine with orderly files: `Refresh.failed_run_retried`.
-/
import Graft.Proofs.ArtifactNames
import Graft.Proofs.Generation
import Graft.Proofs.MarksFrame
import Graft.Proofs.Orderly
import Graft.Refresh

set_option autoImplicit false

namespace Graft

open FileTree (Location Simple target target_entry)

/-! ## 1. The place of the index -/

namespace Files

variable {σ : Type} {files : Files σ} {cwd : Location} {index : Path} {s s' s'' : σ}

/-- No regular file is where the path of the index leads. -/
def Absent (files : Files σ) (index : Path) (s : σ) : Prop :=
  (files.tree s).content? (target (files.cwd s) index) = none

/-- From a working directory on, no regular file came up where the path of the index leads. -/
def Spares (files : Files σ) (cwd : Location) (index : Path) (s s' : σ) : Prop :=
  files.cwd s = cwd → files.Steady (fun location => location ≠ target cwd index) s s'

theorem composable_spares : Composable (files.Spares cwd index) where
  refl s _ := .refl _ s
  trans h h' hcwd := (h hcwd).trans (h' ((h hcwd).cwd.trans hcwd))

theorem Steady.spares {places : Location → Prop} (h : files.Steady places s s')
    (hout : files.cwd s = cwd → ¬ places (target cwd index)) : files.Spares cwd index s s' := by
  intro hcwd
  apply h.mono
  rintro location hplace rfl
  exact hout hcwd hplace

theorem Same.spares (h : files.Same s s') : files.Spares cwd index s s' := fun _ => h.steady

theorem Spares.cwd_eq (h : files.Spares cwd index s s') (hcwd : files.cwd s = cwd) :
    files.cwd s' = cwd := (h hcwd).cwd.trans hcwd

theorem Spares.absent (h : files.Spares cwd index s s') (hcwd : files.cwd s = cwd)
    (habsent : files.Absent index s) : files.Absent index s' := by
  unfold Absent at *
  rw [h.cwd_eq hcwd]
  rw [hcwd] at habsent
  exact (h hcwd).free _ (fun hother => hother rfl) habsent

theorem Spares.inReach (h : files.Spares cwd index s s') (hcwd : files.cwd s = cwd)
    (hreach : (files.tree s).InReach (files.cwd s) index) :
    (files.tree s').InReach (files.cwd s') index := by
  rw [h.cwd_eq hcwd]
  rw [hcwd] at hreach
  exact hreach.mono (h hcwd).directories ((h hcwd).free _ fun hother => hother rfl)

variable [Host (StateM σ)]

/-- Marks spare the index if it is not their file. -/
theorem respected_spares (horderly : files.Orderly) {file : Path}
    (hfile : target cwd file ≠ target cwd index) :
    Marks.Respected (files.Spares cwd index) file where
  composable := composable_spares
  readBytes path s := (horderly.readBytes path s).spares
  createDirectories path s := (horderly.createDirectories path s).spares fun _ => id
  replaceFile content s := by
    -- This is the one operation that makes a file come up, and it comes up at the file of the marks.
    apply (horderly.replaceFile file content s).spares
    rintro rfl ⟨-, heq⟩
    exact hfile heq.symm
  removeFile s := (horderly.removeFile file s).spares fun _ => id
  log event s := (horderly.log event s).spares

end Files

/-! ## 2. Generations -/

namespace Artifact

open Files (composable_spares)

/-- No sheet goes to the index: a readable stem that starts like it is not given out, and what is
given out instead has a hyphen. -/
theorem file_ne_indexFile {ledger : Ledger} {sheet : Sheet} (h : sheet ∈ sheets ledger) :
    sheet.file ≠ indexFile := by
  obtain ⟨⟨destination, stem⟩, hin, rfl⟩ := List.mem_map.mp h
  intro heq
  have hstem : stem = "_index" := by
    have hchars := congrArg String.toList heq
    rw [String.toList_append] at hchars
    exact String.toList_inj.mp (List.append_inj_left' hchars rfl)
  obtain ⟨d, -, ⟨-, hfree⟩ | hsuffixed⟩ := eq_of_mem_claimAll (List.of_mem_zip hin).2
  · apply hfree
    rw [Reserved, hstem]
    rfl
  · have hhyphen : '-' ∈ stem.toList := by
      rw [hsuffixed, toList_suffixed]
      simp
    rw [hstem] at hhyphen
    exact absurd hhyphen (by decide)

variable {σ : Type} [Host (StateM σ)] {files : Files σ} {cwd : Location} {directory : Path}
variable {s s' : σ}

/-- One name of a directory that is cleared: nothing fails while the index is in reach, and if the
name is that of the index, the index is gone. -/
theorem removeOld_cons_cases (horderly : files.Orderly) {name : String} {names : List String}
    {result : Except ArtifactError Unit}
    (hreach : (files.tree s).InReach (files.cwd s) (directory.entry indexFile))
    (h : (removeOld directory (name :: names) : ExceptT ArtifactError (StateM σ) Unit).run.run s
      = (result, s')) :
    ∃ t, (removeOld directory names : ExceptT ArtifactError (StateM σ) Unit).run.run t
        = (result, s') ∧
      files.Spares cwd (directory.entry indexFile) s t ∧
      (name = indexFile → files.Absent (directory.entry indexFile) t) := by
  rcases run_bind_cases h with ⟨_, hlook, -⟩ | ⟨answer, t, hlook, h⟩
  · exact absurd (Prod.mk.inj hlook).1 (by simp)
  rw [run_lift] at hlook
  obtain ⟨hanswer, rfl⟩ := Prod.mk.inj hlook
  have hanswer := Except.ok.inj hanswer
  rw [horderly.isFile_eq] at hanswer
  have hsame := horderly.isFile (directory.entry name) s
  split at h
  · next hold =>
    -- The law that a regular file can be deleted applies.
    rw [Bool.and_eq_true] at hold
    have hfile := hanswer.trans hold.1
    rw [← hsame.tree, ← hsame.cwd] at hfile
    obtain ⟨hok, hgone⟩ := horderly.removed _ _ hfile
    have hsteady := horderly.removeFile (directory.entry name)
      ((Host.isFile (directory.entry name) : StateM σ Bool).run s).2
    rcases run_bind_cases h with ⟨_, hremove, -⟩ | ⟨_, u, hremove, h⟩
    · rcases run_mapError_cases hremove with ⟨_, hfailed, -⟩ | ⟨_, -, hnone⟩
      · rw [hfailed] at hok
        exact absurd hok (by simp)
      · exact absurd hnone (by simp)
    · rcases run_mapError_cases hremove with ⟨_, -, hnone⟩ | ⟨_, hremoved, -⟩
      · exact absurd hnone (by simp)
      · rw [hremoved] at hsteady hgone
        refine ⟨u, h, composable_spares.trans hsame.spares (hsteady.spares fun _ => id), ?_⟩
        rintro rfl
        rw [Files.Absent, hsteady.cwd]
        exact hgone
  · next hkept =>
    refine ⟨_, h, hsame.spares, ?_⟩
    rintro rfl
    rw [Files.Absent, hsame.tree, hsame.cwd]
    -- The index has the right extension, so it is kept only if it is no regular file.
    rcases hreach with habsent | hfile
    · exact habsent
    · rw [← hanswer, hfile] at hkept
      exact absurd rfl hkept

/-- Clearing names of a directory does not fail while the index is in reach, and deletes the index if
it is among the names. -/
theorem removeOld_spec (horderly : files.Orderly) {names : List String}
    {result : Except ArtifactError Unit} (hcwd : files.cwd s = cwd)
    (hreach : (files.tree s).InReach (files.cwd s) (directory.entry indexFile))
    (h : (removeOld directory names : ExceptT ArtifactError (StateM σ) Unit).run.run s
      = (result, s')) :
    files.Spares cwd (directory.entry indexFile) s s' ∧
      (indexFile ∈ names → files.Absent (directory.entry indexFile) s') := by
  induction names generalizing s with
  | nil =>
    obtain ⟨rfl, rfl⟩ := Prod.mk.inj h
    exact ⟨composable_spares.refl _, fun hin => absurd hin List.not_mem_nil⟩
  | cons name rest ih =>
    obtain ⟨t, hrest, hspares, hindex⟩ := removeOld_cons_cases horderly hreach h
    have hcwd' := hspares.cwd_eq hcwd
    obtain ⟨hspares', hmore⟩ := ih hcwd' (hspares.inReach hcwd hreach) hrest
    refine ⟨composable_spares.trans hspares hspares', fun hin => ?_⟩
    rcases List.mem_cons.mp hin with heq | hin
    · exact hspares'.absent hcwd' (hindex heq.symm)
    · exact hmore hin

/-- **After a directory was cleared its index is gone**, whether or not clearing it has failed, if it
was in reach. -/
theorem absent_of_clear (horderly : files.Orderly) {result : Except ArtifactError Unit}
    (hne : directory.text ≠ "") (hcwd : files.cwd s = cwd)
    (hreach : (files.tree s).InReach (files.cwd s) (directory.entry indexFile))
    (h : (clear directory : ExceptT ArtifactError (StateM σ) Unit).run.run s = (result, s')) :
    files.Spares cwd (directory.entry indexFile) s s' ∧
      files.Absent (directory.entry indexFile) s' := by
  rcases run_bind_cases h with ⟨_, hlook, -⟩ | ⟨listed, t, hlook, h⟩
  · exact absurd (Prod.mk.inj hlook).1 (by simp)
  rw [run_lift] at hlook
  obtain ⟨hlisted, rfl⟩ := Prod.mk.inj hlook
  have hlisted := Except.ok.inj hlisted
  have hsame := horderly.list directory s
  have hspares : files.Spares cwd (directory.entry indexFile) s _ := hsame.spares
  have hcwd' := hspares.cwd_eq hcwd
  -- An index that is there is in reach, so its directory can be listed, and it is in the list.
  have hthere : files.Absent (directory.entry indexFile) s ∨
      ∃ names, listed = .ok names ∧ indexFile ∈ names := by
    refine hreach.imp id fun hfile => ?_
    obtain ⟨names, hnames, hin⟩ := FileTree.mem_list_of_isFile hne simple_indexFile hfile
    obtain ⟨found, hfound, hall⟩ := horderly.listed directory s names hnames
    exact ⟨found, hlisted.symm.trans hfound, hall _ hin⟩
  have hfailed (hno : ∀ names, listed ≠ .ok names) :
      files.Absent (directory.entry indexFile)
        ((Host.list directory : StateM σ (Except FileError (List String))).run s).2 := by
    rcases hthere with habsent | ⟨names, hnames, -⟩
    · exact hspares.absent hcwd habsent
    · exact absurd hnames (hno names)
  split at h
  · obtain ⟨-, rfl⟩ := Prod.mk.inj h
    exact ⟨hspares, hfailed fun _ => by simp⟩
  · obtain ⟨-, rfl⟩ := Prod.mk.inj h
    exact ⟨hspares, hfailed fun _ => by simp⟩
  · next names =>
    obtain ⟨hspares', hindex⟩ :=
      removeOld_spec horderly hcwd' (hspares.inReach hcwd hreach) h
    refine ⟨composable_spares.trans hspares hspares', ?_⟩
    rcases hthere with habsent | ⟨found, hfound, hin⟩
    · exact hspares'.absent hcwd' (hspares.absent hcwd habsent)
    · obtain rfl := Except.ok.inj hfound
      exact hindex hin

/-- Sheets go beside the index. -/
theorem spares_writeSheets (horderly : files.Orderly) (space : Namespace) {sheets : List Sheet}
    (h : ∀ sheet ∈ sheets, Simple sheet.file ∧ sheet.file ≠ indexFile) :
    Keeps (files.Spares cwd (directory.entry indexFile))
      (writeSheets space directory sheets : ExceptT ArtifactError (StateM σ) Unit).run := by
  have hlog (event : Event) : Keeps (files.Spares cwd (directory.entry indexFile))
      (Host.log event : StateM σ Unit) := fun s => (horderly.log event s).spares
  refine keeps_writeSheets composable_spares hlog space fun sheet hsheet content s => ?_
  obtain ⟨hsimple, hother⟩ := h sheet hsheet
  -- Two entries of a directory lead to the same place only if they have the same name.
  apply (horderly.writeFile _ _ s).spares
  rintro rfl ⟨-, heq⟩
  rw [target_entry _ _ simple_indexFile, target_entry _ _ hsimple] at heq
  exact hother (List.singleton_inj.mp (List.append_cancel_left heq)).symm

theorem simple_of_isIdentifier {name : String} (h : Namespace.isIdentifier name.toList = true) :
    Simple name := by
  have hne (other : String) (hother : Namespace.isIdentifier other.toList = false) :
      name ≠ other := by
    rintro rfl
    exact absurd (h.symm.trans hother) (by simp)
  -- The names that lead elsewhere are no identifiers, and no character of an identifier is a slash.
  refine ⟨fun hslash => ?_, hne "" rfl, hne "." rfl, hne ".." rfl⟩
  cases hchars : name.toList with
  | nil =>
    rw [hchars] at hslash
    exact absurd hslash List.not_mem_nil
  | cons c rest =>
    rw [hchars] at h hslash
    rw [Namespace.isIdentifier, Bool.and_eq_true] at h
    rcases List.mem_cons.mp hslash with rfl | hin
    · exact absurd h.1 (by decide)
    · exact absurd (List.all_eq_true.mp h.2 _ hin) (by decide)

/-- The directory of a namespace is never the empty path. -/
theorem text_directory_ne_empty (space : Namespace) (output : Path) :
    (Artifact.directory space output).text ≠ "" := by
  have hentry (base : Path) {name : String} (hname : Simple name) : (base.entry name).text ≠ "" := by
    rcases FileTree.entry_cases base hname with ⟨-, h⟩ | ⟨_, -, h⟩ | ⟨-, h⟩
    · rw [h]
      exact hname.ne_empty
    · rw [h]
      simp [hname.ne_empty]
    · rw [h]
      simp [hname.ne_empty]
  have hpath : space.path.text ≠ "" := by
    -- The last segment of the namespace is what the path ends in.
    have hlast := space.identifiers _ (List.getLast_mem space.nonempty)
    rw [Namespace.path, Path.ofNames, ← List.dropLast_append_getLast space.nonempty,
      List.foldl_append]
    exact hentry _ (simple_of_isIdentifier hlast)
  unfold Artifact.directory Path.join
  split
  · exact hpath
  · split
    · simp [hpath]
    · simp [hpath]

/-- **A generation that fails leaves no index**, if one that was there was in reach. -/
theorem absent_of_generate_error (horderly : files.Orderly) {ledger : Ledger} {space : Namespace}
    {output : Path} {error : ArtifactError} (hcwd : files.cwd s = cwd)
    (hreach : (files.tree s).InReach (files.cwd s) (indexPath space output))
    (h : (generate ledger space output : ExceptT ArtifactError (StateM σ) _).run.run s
      = (.error error, s')) :
    files.Spares cwd (indexPath space output) s s' ∧ files.Absent (indexPath space output) s' := by
  have hclear {result : Except ArtifactError Unit} {t : σ}
      (hrun : (clear (Artifact.directory space output) :
        ExceptT ArtifactError (StateM σ) Unit).run.run s = (result, t)) :=
    absent_of_clear horderly (text_directory_ne_empty space output) hcwd hreach hrun
  rcases run_bind_cases h with ⟨_, hfirst, -⟩ | ⟨_, s₁, hfirst, h⟩
  · exact hclear hfirst
  obtain ⟨hspares, habsent⟩ := hclear hfirst
  have hcwd₁ := hspares.cwd_eq hcwd
  -- From here on the index is gone, and it is enough that it does not come up.
  suffices hrest : files.Spares cwd (indexPath space output) s₁ s' from
    ⟨composable_spares.trans hspares hrest, hrest.absent hcwd₁ habsent⟩
  have hmake : Keeps (files.Spares cwd (indexPath space output))
      (guardIo (Artifact.directory space output)
        (Host.createDirectories (Artifact.directory space output) : StateM σ _)).run :=
    Keeps.mapError composable_spares _ fun s =>
      (horderly.createDirectories _ s).spares fun _ => id
  rcases run_bind_cases h with ⟨_, hsecond, -⟩ | ⟨_, s₂, hsecond, h⟩
  · exact hmake.of_run hsecond
  refine composable_spares.trans (hmake.of_run hsecond) ?_
  have hsheets : Keeps (files.Spares cwd (indexPath space output))
      (writeSheets space (Artifact.directory space output) (sheets ledger) :
        ExceptT ArtifactError (StateM σ) Unit).run :=
    spares_writeSheets horderly space fun sheet hsheet =>
      ⟨simple_file hsheet, file_ne_indexFile hsheet⟩
  rcases run_bind_cases h with ⟨_, hthird, -⟩ | ⟨_, s₃, hthird, h⟩
  · exact hsheets.of_run hthird
  refine composable_spares.trans (hsheets.of_run hthird) ?_
  rcases run_bind_cases h with ⟨_, hfourth, -⟩ | ⟨_, s₄, hfourth, h⟩
  · rcases run_mapError_cases hfourth with ⟨cause, hwrite, -⟩ | ⟨_, -, hnone⟩
    · -- The write of the index has failed, so it has not left one.
      have hsteady := horderly.writeFile (indexPath space output)
        (content (indexJson space ledger.fingerprint (sheets ledger))) s₃
      rw [hwrite] at hsteady
      exact hsteady.spares fun _ hplace => absurd hplace.1 (by simp)
    · exact absurd hnone (by simp)
  · -- Behind the index there is only the log, which does not fail.
    exact absurd (Prod.mk.inj h).1 (by rintro ⟨⟩)

end Artifact

/-! ## 3. Refreshing -/

namespace Refresh

open Files (composable_spares respected_spares)

variable {σ : Type} [Host (StateM σ)] {files : Files σ} {R : σ → σ → Prop} {s s' : σ}
variable {refresh refresh' : Refresh} {fingerprint : String} {ledger : Ledger}

/-- Two actions for the same artifacts with their marks in the same file. -/
structure Alike (refresh refresh' : Refresh) : Prop where
  space : refresh'.space = refresh.space
  output : refresh'.output = refresh.output
  file : refresh'.marks.file = refresh.marks.file

/-- Artifacts that are not due have an index. -/
theorem check_spec (horderly : files.Orderly) (hR : Marks.Respected R refresh.marks.file)
    (hsame : ∀ s s', files.Same s s' → R s s') {due : Bool}
    (h : (refresh.check fingerprint : StateM σ _).run s = ((due, refresh'), s')) :
    Alike refresh refresh' ∧ R s s' ∧
      (due = false → (files.tree s').isFile (files.cwd s')
        (Artifact.indexPath refresh.space refresh.output) = true) := by
  rw [check, run_bind] at h
  rcases hnew : (refresh.marks.isNew fingerprint : StateM σ _).run s with ⟨⟨fresh, marks⟩, t⟩
  rw [hnew] at h
  obtain ⟨hfile, hkept⟩ := Marks.frame_isNew hR rfl hnew
  cases fresh with
  | true =>
    obtain ⟨⟨rfl, rfl⟩, rfl⟩ := (Prod.mk.inj h).imp_left Prod.mk.inj
    exact ⟨⟨rfl, rfl, hfile⟩, hkept, fun hdue => absurd hdue (by simp)⟩
  | false =>
    -- The answer is what the machine says of the index, and looking changes nothing.
    rcases hask : (Host.isFile (Artifact.indexPath refresh.space refresh.output) :
      StateM σ Bool).run t with ⟨answer, u⟩
    have hlook := horderly.isFile (Artifact.indexPath refresh.space refresh.output) t
    have heq := horderly.isFile_eq (Artifact.indexPath refresh.space refresh.output) t
    rw [hask] at hlook heq
    simp only [Bool.false_eq_true, if_false] at h
    rw [run_bind, hask] at h
    obtain ⟨⟨rfl, rfl⟩, rfl⟩ := (Prod.mk.inj h).imp_left Prod.mk.inj
    refine ⟨⟨rfl, rfl, hfile⟩, hR.composable.trans hkept (hsame _ _ hlook), fun hdue => ?_⟩
    rw [hlook.tree, hlook.cwd, ← heq]
    exact (Bool.not_eq_false' ..).mp hdue

/-- Taking a mark back does no more to a machine than other uses of marks. -/
theorem retract_spec (hR : Marks.Respected R refresh.marks.file)
    (h : (refresh.retract fingerprint : StateM σ _).run s = (refresh', s')) :
    Alike refresh refresh' ∧ R s s' := by
  rw [retract, run_bind] at h
  rcases hforget : ((Marks.forget fingerprint : Marks.Step (StateM σ) Unit).run.run
    refresh.marks).run s with ⟨⟨result, marks⟩, t⟩
  rw [hforget] at h
  have howned : Marks.Owned R refresh.marks.file s refresh.marks s := ⟨rfl, hR.composable.refl s⟩
  obtain ⟨⟨hfile, hkept⟩, -⟩ := Marks.frames_forget hR _ howned hforget
  cases result with
  | ok _ =>
    obtain ⟨rfl, rfl⟩ := Prod.mk.inj h
    exact ⟨⟨rfl, rfl, hfile⟩, hkept⟩
  | error error =>
    obtain ⟨rfl, rfl⟩ := Prod.mk.inj h
    exact ⟨⟨rfl, rfl, hfile⟩, hR.composable.trans hkept (hR.log _ _)⟩

/-- How a refresh ends: the artifacts are not due, and nothing is done; or they are generated, and the
refresh ends as the generation does, after a failure by taking the mark back. -/
theorem runIfDue_spec {result : Except ArtifactError (Option Artifact.Report)}
    (h : (refresh.runIfDue ledger : StateM σ _).run s = ((result, refresh'), s')) :
    ∃ due checked t,
      (refresh.check (refresh.fingerprint ledger) : StateM σ _).run s = ((due, checked), t) ∧
      ((due = false ∧ result = .ok none) ∨
        (due = true ∧ ∃ outcome u,
          (Artifact.generate ledger checked.space checked.output :
            ExceptT ArtifactError (StateM σ) _).run.run t = (outcome, u) ∧
          result = outcome.map some ∧
          (∀ error, outcome = .error error →
            (checked.retract (refresh.fingerprint ledger) : StateM σ _).run u
              = (refresh', s')))) := by
  rw [runIfDue, run_bind] at h
  rcases hcheck : (refresh.check (refresh.fingerprint ledger) : StateM σ _).run s
    with ⟨⟨due, checked⟩, t⟩
  rw [hcheck] at h
  refine ⟨due, checked, t, rfl, ?_⟩
  cases due with
  | false =>
    obtain ⟨⟨rfl, -⟩, -⟩ := (Prod.mk.inj h).imp_left Prod.mk.inj
    exact .inl ⟨rfl, rfl⟩
  | true =>
    simp only [if_true] at h
    rw [run_bind, Refresh.run] at h
    rcases hrun : (Artifact.generate ledger checked.space checked.output :
      ExceptT ArtifactError (StateM σ) _).run.run t with ⟨error | report, u⟩
    · rw [hrun] at h
      obtain ⟨⟨rfl, rfl⟩, rfl⟩ := (Prod.mk.inj h).imp_left Prod.mk.inj
      exact .inr ⟨rfl, _, u, rfl, rfl, fun _ _ => rfl⟩
    · rw [hrun] at h
      obtain ⟨⟨rfl, rfl⟩, rfl⟩ := (Prod.mk.inj h).imp_left Prod.mk.inj
      exact .inr ⟨rfl, _, u, rfl, rfl, fun _ herror => absurd herror (by simp)⟩

/-! ## 4. After a failure -/

/-- A refresh attempts a generation: the artifacts are due, and the refresh ends as the generation. -/
def Attempts (refresh : Refresh) (ledger : Ledger) (s : σ)
    (result : Except ArtifactError (Option Artifact.Report)) : Prop :=
  ∃ checked t outcome u,
    (refresh.check (refresh.fingerprint ledger) : StateM σ _).run s = ((true, checked), t) ∧
    (Artifact.generate ledger refresh.space refresh.output :
      ExceptT ArtifactError (StateM σ) _).run.run t = (outcome, u) ∧
    result = outcome.map some

/-- The marks of an action are kept in another file than the index of its artifacts. -/
def Apart (files : Files σ) (refresh : Refresh) (s : σ) : Prop :=
  target (files.cwd s) refresh.marks.file
    ≠ target (files.cwd s) (Artifact.indexPath refresh.space refresh.output)

variable {result : Except ArtifactError (Option Artifact.Report)}

/-- Without an index artifacts are due, whatever the marks say. -/
theorem attempts_of_absent (horderly : files.Orderly) (hapart : refresh.Apart files s)
    (habsent : files.Absent (Artifact.indexPath refresh.space refresh.output) s)
    (h : (refresh.runIfDue ledger : StateM σ _).run s = ((result, refresh'), s')) :
    refresh.Attempts ledger s result := by
  obtain ⟨due, checked, t, hcheck, hend⟩ := runIfDue_spec h
  obtain ⟨halike, hspares, hdue⟩ := check_spec horderly
    (respected_spares horderly hapart) (fun _ _ hsame => hsame.spares) hcheck
  rcases hend with ⟨rfl, -⟩ | ⟨rfl, outcome, u, hrun, hresult, -⟩
  · -- Then the index is a regular file, but it was absent and marks do not make it.
    have hnone := FileTree.isFile_of_content?_eq_none (hspares.absent rfl habsent)
    exact absurd (hnone.symm.trans (hdue rfl)) (by simp)
  · rw [halike.space, halike.output] at hrun
    exact ⟨checked, t, outcome, u, hcheck, hrun, hresult⟩

/-- A run that fails leaves no index, if one that was there was in reach. -/
theorem absent_of_error (horderly : files.Orderly) (hapart : refresh.Apart files s)
    (hreach : (files.tree s).InReach (files.cwd s)
      (Artifact.indexPath refresh.space refresh.output)) {error : ArtifactError}
    (h : (refresh.runIfDue ledger : StateM σ _).run s = ((.error error, refresh'), s')) :
    files.Absent (Artifact.indexPath refresh.space refresh.output) s' ∧
      files.cwd s' = files.cwd s := by
  obtain ⟨due, checked, t, hcheck, hend⟩ := runIfDue_spec h
  obtain ⟨halike, hspares, -⟩ := check_spec horderly
    (respected_spares horderly hapart) (fun _ _ hsame => hsame.spares) hcheck
  have hcwd := hspares.cwd_eq rfl
  rcases hend with ⟨-, hnone⟩ | ⟨-, outcome, u, hrun, hresult, hretract⟩
  · exact absurd hnone (by simp)
  cases outcome with
  | ok report => exact absurd hresult (by simp [Except.map])
  | error cause =>
    rw [halike.space, halike.output] at hrun
    obtain ⟨hspares', habsent⟩ :=
      Artifact.absent_of_generate_error horderly hcwd (hspares.inReach rfl hreach) hrun
    -- Taking the mark back uses the same file as the check.
    have hrespected := respected_spares horderly hapart
    rw [← halike.file] at hrespected
    have hspares'' := (retract_spec hrespected (hretract cause rfl)).2
    have hcwd' := hspares'.cwd_eq hcwd
    exact ⟨hspares''.absent hcwd' habsent, hspares''.cwd_eq hcwd'⟩

/-- The states of a machine that may follow a state while no generation of certain artifacts
succeeds: others do what they like but make no index, and any action for these artifacts, with marks in
any file and for any ledger, is run and has no report to show. -/
inductive Fruitless (files : Files σ) (space : Namespace) (output : Path) (start : σ) : σ → Prop
  | start : Fruitless files space output start start
  | others {s s' : σ} (before : Fruitless files space output start s)
      (cwd : files.cwd s' = files.cwd s)
      (index : files.Absent (Artifact.indexPath space output) s →
        files.Absent (Artifact.indexPath space output) s') :
      Fruitless files space output start s'
  | run {s s' : σ} {refresh refresh' : Refresh} {ledger : Ledger}
      {result : Except ArtifactError (Option Artifact.Report)}
      (before : Fruitless files space output start s)
      (space_eq : refresh.space = space) (output_eq : refresh.output = output)
      (apart : refresh.Apart files s)
      (run : (refresh.runIfDue ledger : StateM σ _).run s = ((result, refresh'), s'))
      (fruitless : ∀ report, result ≠ .ok (some report)) :
      Fruitless files space output start s'

/-- While no generation succeeds, the index stays absent. -/
theorem absent_of_fruitless (horderly : files.Orderly) {space : Namespace} {output : Path}
    {start : σ} (hstart : files.Absent (Artifact.indexPath space output) start)
    (h : Fruitless files space output start s) :
    files.Absent (Artifact.indexPath space output) s := by
  -- The induction is on the steps since the failure; without an index no run can be skipped.
  induction h with
  | start => exact hstart
  | others _ _ index ih => exact index ih
  | @run s s' refresh refresh' ledger result _ hspace houtput hapart hrun hfruitless ih =>
    subst hspace houtput
    cases hresult : result with
    | error error =>
      rw [hresult] at hrun
      exact (absent_of_error horderly hapart (.inl ih) hrun).1
    | ok report? =>
      -- The run has attempted a generation, and a generation that succeeds has a report.
      obtain ⟨_, _, outcome, _, -, -, houtcome⟩ := attempts_of_absent horderly hapart ih hrun
      cases outcome with
      | error cause => exact absurd (hresult.symm.trans houtcome) (by simp [Except.map])
      | ok report => exact absurd houtcome (hfruitless report)

/-- **A run that fails is tried again.** If a refresh fails, on a machine with orderly files, with its
marks apart from the index and with no index out of reach, then the index is not a regular file; and
however often others and further refreshes come in between, as long as none of these succeeds, the next
refresh of these artifacts attempts a generation. -/
theorem failed_run_retried (horderly : files.Orderly) (hapart : refresh.Apart files s)
    (hreach : (files.tree s).InReach (files.cwd s)
      (Artifact.indexPath refresh.space refresh.output)) {error : ArtifactError}
    (h : (refresh.runIfDue ledger : StateM σ _).run s = ((.error error, refresh'), s')) :
    (files.tree s').isFile (files.cwd s') (Artifact.indexPath refresh.space refresh.output)
        = false ∧
      ∀ t, Fruitless files refresh.space refresh.output s' t →
        ∀ (next next' : Refresh) (ledger' : Ledger) result t', next.space = refresh.space →
          next.output = refresh.output → next.Apart files t →
          (next.runIfDue ledger' : StateM σ _).run t = ((result, next'), t') →
          result ≠ .ok none ∧ next.Attempts ledger' t result := by
  have habsent := (absent_of_error horderly hapart hreach h).1
  refine ⟨FileTree.isFile_of_content?_eq_none habsent, ?_⟩
  intro t hfruitless next next' ledger' result t' hspace houtput hapart' hrun
  have habsent' := absent_of_fruitless horderly habsent hfruitless
  rw [← hspace, ← houtput] at habsent'
  have hattempts := attempts_of_absent horderly hapart' habsent' hrun
  refine ⟨?_, hattempts⟩
  obtain ⟨_, _, outcome, _, -, -, rfl⟩ := hattempts
  cases outcome <;> simp [Except.map]

/-! ## 5. Two machines -/

/-- A machine with an index, on which the file of a sheet cannot be written, because a directory is in
its place. -/
def blockedWorld : World where
  tree := ((((FileTree.empty.insert ["out"] .directory).insert ["out", "App"] .directory).insert
    ["out", "App", "_index.json"] (.file .empty)).insert ["out", "App", "T.json"] .directory)
  cwd := []
  temporary := ⟨"tmp"⟩
  events := []

/-- A ledger with one operation. -/
def oneRegistration : Ledger := ((Ledger.new .enabled).record "T" "op" {} .handler).2

/-- An action with fresh marks for the artifacts of a namespace below an output directory. -/
def actionFor (output : String) : Refresh where
  space := Artifact.app
  output := ⟨output⟩
  marks := .new ⟨"cache.json"⟩ ⟨"lock"⟩

/-- Whether a run has failed. -/
def hasFailed : Except ArtifactError (Option Artifact.Report) → Bool
  | .error _ => true
  | .ok _ => false

theorem exists_of_hasFailed (h : hasFailed result = true) : ∃ error, result = .error error := by
  cases result with
  | error error => exact ⟨error, rfl⟩
  | ok _ => exact absurd h (by simp [hasFailed])

/-- A run that cannot write a sheet has deleted the index, and the next run tries again. -/
theorem failed_run_retried_blocked :
    ∃ error refresh' w',
      ((actionFor "out").runIfDue oneRegistration : StateM World _).run blockedWorld
        = ((.error error, refresh'), w') ∧
      w'.tree.isFile w'.cwd ⟨"out/App/_index.json"⟩ = false ∧
      ∀ ledger result refresh'' w'',
        ((actionFor "out").runIfDue ledger : StateM World _).run w' = ((result, refresh''), w'') →
        result ≠ .ok none := by
  rcases hrun : ((actionFor "out").runIfDue oneRegistration : StateM World _).run blockedWorld
    with ⟨⟨result, refresh'⟩, w'⟩
  have houtcome :
      hasFailed (((actionFor "out").runIfDue oneRegistration : StateM World _).run
        blockedWorld).1.1 = true ∧
      (((actionFor "out").runIfDue oneRegistration : StateM World _).run blockedWorld).2.cwd
        = [] := by
    decide +kernel
  rw [hrun] at houtcome
  obtain ⟨error, rfl⟩ := exists_of_hasFailed houtcome.1
  -- The laws hold of this machine, the cache is apart from the index, and the index is in reach.
  have hpath : Artifact.indexPath (actionFor "out").space (actionFor "out").output
      = ⟨"out/App/_index.json"⟩ := by decide +kernel
  have hapart (w : World) (hcwd : w.cwd = []) : (actionFor "out").Apart World.files w := by
    rw [Apart, show World.files.cwd w = [] from hcwd, hpath]
    decide +kernel
  have hreach : (World.files.tree blockedWorld).InReach (World.files.cwd blockedWorld)
      ⟨"out/App/_index.json"⟩ := .inr (by decide +kernel)
  rw [← hpath] at hreach
  obtain ⟨hindex, hnext⟩ := failed_run_retried World.orderly (hapart blockedWorld rfl) hreach hrun
  rw [hpath] at hindex
  refine ⟨error, refresh', w', rfl, hindex, fun ledger result refresh'' w'' hagain => ?_⟩
  exact (hnext w' .start _ refresh'' ledger result w'' rfl rfl (hapart w' houtcome.2) hagain).1

/-- **A run that fails may leave an index.** The path of the output goes into a directory that is
missing and out of it again, so the index is out of reach at first and nothing is cleared; the run
makes the directory, fails at the sheet, and leaves the index in reach. -/
theorem failed_run_leaves_index :
    ∃ error refresh' w',
      ((actionFor "a/../out").runIfDue oneRegistration : StateM World _).run blockedWorld
        = ((.error error, refresh'), w') ∧
      w'.tree.isFile w'.cwd ⟨"a/../out/App/_index.json"⟩ = true := by
  rcases hrun : ((actionFor "a/../out").runIfDue oneRegistration : StateM World _).run blockedWorld
    with ⟨⟨result, refresh'⟩, w'⟩
  have houtcome :
      hasFailed (((actionFor "a/../out").runIfDue oneRegistration : StateM World _).run
        blockedWorld).1.1 = true ∧
      (((actionFor "a/../out").runIfDue oneRegistration : StateM World _).run
        blockedWorld).2.tree.isFile (((actionFor "a/../out").runIfDue oneRegistration :
          StateM World _).run blockedWorld).2.cwd ⟨"a/../out/App/_index.json"⟩ = true := by
    decide +kernel
  rw [hrun] at houtcome
  obtain ⟨error, rfl⟩ := exists_of_hasFailed houtcome.1
  exact ⟨error, refresh', w', rfl, houtcome.2⟩

end Refresh

end Graft
