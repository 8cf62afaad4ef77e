/-
When a run is the last one that has anything to do.

A run that has written artifacts leaves its marks in memory and the index on disk, so the action that
made it is done: asked again, it finds both and touches nothing. An action that is opened anew over the
same files knows what the file of the marks holds, and that is what the first one has in memory,
unless the first one had no reason to write it. It has none when it was due for the sake of the index
alone, its image in memory is from before somebody else wrote the file, and the marks were lost from
the file but not from the image.

The main statement is `Refresh.run_settles`. Behind it stands an action of that kind.
-/
import Graft.Proofs.Containment
import Graft.Proofs.MarksFrame
import Graft.Proofs.MarksMirror
import Graft.Proofs.Skipping
import Graft.Proofs.Written

set_option autoImplicit false

namespace Graft

open FileTree (Location Simple target enter)

/-! ## 1. Marks that are there already -/

namespace Marks

variable {file lockFile : Path} {seen : OrderedSet String} {marks marks' : Marks} {w w' : World}
variable {lock fingerprint : String} {fresh : Bool}

/-- Two marks are in the set in memory. -/
def Remembers (marks : Marks) (lock fingerprint : String) : Prop :=
  ∃ seen, marks.seen = some seen ∧ lock ∈ seen ∧ fingerprint ∈ seen

/-- Two marks are in the file. -/
def Filed (file : Path) (lock fingerprint : String) (w : World) : Prop :=
  ∃ seen, stored? file w = some seen ∧ lock ∈ seen ∧ fingerprint ∈ seen

theorem run_storage_loaded (h : marks.seen = some seen) :
    ((storage : Step (StateM World) _).run.run marks).run w = ((.ok seen, marks), w) := by
  rw [storage, run_get_bind, h]
  rfl

/-- A check of marks that are there does nothing. -/
theorem run_check_of_remembers (h : marks.Remembers lock fingerprint) :
    ((check lock fingerprint : Step (StateM World) Bool).run.run marks).run w
      = ((.ok false, marks), w) := by
  obtain ⟨seen, hseen, hlock, hfingerprint⟩ := h
  have hlock : seen.contains lock = true := decide_eq_true hlock
  have hfingerprint : seen.contains fingerprint = true := decide_eq_true hfingerprint
  rw [check, run_bind_run, run_storage_loaded hseen]
  simp only [hlock, Bool.not_true, Bool.false_eq_true, if_false]
  rw [run_bind_run, run_storage_loaded hseen]
  simp only [hfingerprint, if_true]
  rfl

/-- A check starts by reading the set, and goes on as if it had been in memory before. -/
theorem run_check_of_storage {found : OrderedSet String} {marks₁ : Marks} {w₁ : World}
    (hseen : marks₁.seen = some found)
    (h : ((storage : Step (StateM World) _).run.run marks).run w = ((.ok found, marks₁), w₁)) :
    ((check lock fingerprint : Step (StateM World) Bool).run.run marks).run w
      = ((check lock fingerprint : Step (StateM World) Bool).run.run marks₁).run w₁ := by
  rw [check, run_bind_run, run_bind_run, h, run_storage_loaded hseen]

/-- What is in the set after a check. -/
theorem remembers_of_loaded
    (h : Loaded file lockFile ((underLock seen lock).insert fingerprint) marks w) :
    marks.Remembers lock fingerprint := by
  refine ⟨_, h.seen_eq, ?_, ?_⟩
  · rw [OrderedSet.mem_insert, mem_underLock_iff]
    tauto
  · rw [OrderedSet.mem_insert]
    exact .inr rfl

/-- A check that ends well leaves both marks in memory. Either they were there before and nothing has
happened, or the set in memory is the one of the file. -/
theorem check_outcome (hsane : Sane file lockFile marks)
    (h : ((check lock fingerprint : Step (StateM World) Bool).run.run marks).run w
      = ((.ok fresh, marks'), w')) :
    Sane file lockFile marks' ∧ marks'.Remembers lock fingerprint ∧
      ((marks.Remembers lock fingerprint ∧ marks' = marks ∧ w' = w) ∨
        (¬ marks.Remembers lock fingerprint ∧ Mirrored file lockFile marks' w')) := by
  cases hseen : marks.seen with
  | some seen =>
    have hloaded : Loaded file lockFile seen marks w := ⟨hsane, hseen⟩
    have hafter := (yields_check lock fingerprint (.inl hloaded) h).2
    refine ⟨hafter.toSane, remembers_of_loaded hafter, ?_⟩
    by_cases hboth : lock ∈ seen ∧ fingerprint ∈ seen
    · have hremembers : marks.Remembers lock fingerprint := ⟨seen, hseen, hboth⟩
      rw [run_check_of_remembers hremembers] at h
      obtain ⟨-, rfl, rfl⟩ := outcome_inj h
      exact .inl ⟨hremembers, rfl, rfl⟩
    · refine .inr ⟨?_, mirrors_check_loaded hboth hloaded h⟩
      rintro ⟨other, hother, hin⟩
      rw [hseen] at hother
      obtain rfl := Option.some.inj hother
      exact hboth hin
  | none =>
    -- Nothing was read before, so the check begins with what the file holds.
    have hmirrored : Mirrored file lockFile marks w := by
      refine ⟨hsane, ?_⟩
      intro seen hsome
      rw [hseen] at hsome
      exact absurd hsome (by simp)
    obtain ⟨found, marks₁, w₁, hstorage, -⟩ := run_bind_run_eq_ok h
    obtain ⟨hfound, hmirrored₁⟩ := mirrors_storage hmirrored hstorage
    have hafter := h
    rw [run_check_of_storage hfound hstorage] at hafter
    have hloaded := (yields_check lock fingerprint (.inl ⟨hmirrored₁.toSane, hfound⟩) hafter).2
    refine ⟨hloaded.toSane, remembers_of_loaded hloaded, .inr ⟨?_, mirrors_check _ _ hmirrored h⟩⟩
    rintro ⟨seen, hsome, -⟩
    rw [hseen] at hsome
    exact absurd hsome (by simp)

theorem Mirrored.filed (h : Mirrored file lockFile marks w)
    (hremembers : marks.Remembers lock fingerprint) : Filed file lock fingerprint w := by
  obtain ⟨seen, hseen, hin⟩ := hremembers
  exact ⟨seen, h.image seen hseen, hin⟩

variable {bytes : ByteArray}

/-- The same for a question under a lock file that can be read, when no fault is met. -/
theorem isNew_sound (hlock : w.tree.readBytes w.cwd marks.lockFile = .ok bytes)
    (hrun : (marks.isNew fingerprint : StateM World _).run w = ((fresh, marks'), w'))
    (hsound : marks'.degraded = false) :
    Sane marks.file marks.lockFile marks' ∧ marks'.Remembers (Sha256.hexDigest bytes) fingerprint ∧
      ((marks.Remembers (Sha256.hexDigest bytes) fingerprint ∧ marks' = marks ∧ w' = w) ∨
        (¬ marks.Remembers (Sha256.hexDigest bytes) fingerprint ∧
          Mirrored marks.file marks.lockFile marks' w')) := by
  have hread : (Host.readBytes marks.lockFile : StateM World _).run w = (.ok bytes, w) := by
    rw [← hlock]
    rfl
  cases asking_of_run hrun with
  | unlocked hmissing =>
    rw [hread] at hmissing
    exact absurd (Prod.mk.inj hmissing).1 (by simp)
  | degraded _ hfault => exact absurd (hsound.symm.trans hfault) (by simp)
  | checked hfound hbefore hcheck =>
    rw [hread] at hfound
    obtain ⟨hbytes, rfl⟩ := Prod.mk.inj hfound
    obtain rfl := Except.ok.inj hbytes
    exact check_outcome ⟨rfl, rfl, hbefore⟩ hcheck
  | failed => exact absurd hsound (by simp)

/-- What is known is known without a fault. -/
theorem sound_of_known
    (hrun : (marks.isNew fingerprint : StateM World _).run w = ((false, marks'), w')) :
    marks'.degraded = false := by
  cases asking_of_run hrun with
  | checked _ hbefore hcheck => exact (check_outcome ⟨rfl, rfl, hbefore⟩ hcheck).1.sound

/-- Marks that are there are not new, and asking for them does nothing. -/
theorem isNew_of_remembers (hlock : w.tree.readBytes w.cwd marks.lockFile = .ok bytes)
    (hsound : marks.degraded = false)
    (hremembers : marks.Remembers (Sha256.hexDigest bytes) fingerprint) :
    (marks.isNew fingerprint : StateM World _).run w = ((false, marks), w) := by
  have hread : (Host.readBytes marks.lockFile : StateM World _).run w = (.ok bytes, w) := by
    rw [← hlock]
    rfl
  rw [isNew, run_bind, hread]
  simp only [hsound, Bool.false_eq_true, if_false]
  rw [run_bind, run_check_of_remembers hremembers]
  rfl

/-- Marks that are opened anew find what the file holds. -/
theorem isNew_of_filed (hlock : w.tree.readBytes w.cwd lockFile = .ok bytes)
    (hfiled : Filed file (Sha256.hexDigest bytes) fingerprint w) :
    ∃ marks, ((new file lockFile).isNew fingerprint : StateM World _).run w
      = ((false, marks), w) := by
  obtain ⟨seen, hstored, hin⟩ := hfiled
  have hknown : (isNew ⟨file, lockFile, some seen, false⟩ fingerprint : StateM World _).run w
      = ((false, ⟨file, lockFile, some seen, false⟩), w) :=
    isNew_of_remembers hlock rfl ⟨seen, rfl, hin⟩
  have hobserved := observed_isNew lockFile fingerprint hstored
  rw [hknown] at hobserved
  rcases hrun : ((new file lockFile).isNew fingerprint : StateM World _).run w with
    ⟨⟨fresh, marks⟩, w'⟩
  rw [hrun] at hobserved
  have hfresh : fresh = false := congrArg Prod.fst hobserved
  have hworld : w' = w := congrArg (fun told => told.2.2) hobserved
  rw [hfresh, hworld]
  exact ⟨marks, rfl⟩

end Marks

/-! ## 2. What a run leaves alone -/

/-- A step from a location adds a name that an entry can have, or none. -/
theorem FileTree.simple_of_mem_enter {location : Location} {segment : String}
    (hsegment : '/' ∉ segment.toList) (hlocation : ∀ name ∈ location, Simple name) :
    ∀ name ∈ enter location segment, Simple name := by
  intro name hname
  unfold enter at hname
  split at hname
  · exact hlocation name hname
  · next hstay =>
    rw [not_or] at hstay
    split at hname
    · exact hlocation name (List.mem_of_mem_dropLast hname)
    · next hup =>
      -- What leads neither nowhere nor up is a name.
      rcases List.mem_append.mp hname with hin | hlast
      · exact hlocation name hin
      · rw [List.mem_singleton.mp hlast]
        exact ⟨hsegment, hstay.1, hstay.2, hup⟩

theorem FileTree.simple_of_mem_foldl_enter {segments : List String} {location : Location}
    (hslash : ∀ segment ∈ segments, '/' ∉ segment.toList)
    (hlocation : ∀ name ∈ location, Simple name) :
    ∀ name ∈ segments.foldl enter location, Simple name := by
  induction segments generalizing location with
  | nil => exact hlocation
  | cons segment rest ih =>
    obtain ⟨hsegment, hrest⟩ := List.forall_mem_cons.mp hslash
    exact ih hrest (FileTree.simple_of_mem_enter hsegment hlocation)

/-- Names that an entry can have lead to names that an entry can have. -/
theorem FileTree.simple_of_mem_target {cwd : Location} (path : Path)
    (hcwd : ∀ name ∈ cwd, Simple name) : ∀ name ∈ target cwd path, Simple name := by
  apply FileTree.simple_of_mem_foldl_enter fun _ => FileTree.slash_not_mem_of_mem_segments
  split
  · exact fun _ hname => absurd hname List.not_mem_nil
  · exact hcwd

namespace Marks

variable {σ : Type} [Host (StateM σ)] {files : Files σ} {cwd : Location} {file : Path}

/-- Questions to marks touch their file, and directories that some path leads to. -/
theorem respected_bounded (hprecise : files.Precise) :
    Respected (files.BoundedFrom cwd (· = target cwd file)
      fun location => ∃ path, location = target cwd path) file where
  composable := Files.composable_boundedFrom
  readBytes path s _ := (hprecise.readBytes path s).bounded
  createDirectories path s := by
    intro hcwd
    apply (hprecise.createDirectories path s).mono
    · exact fun _ => False.elim
    · rintro location ⟨above, -, hlocation⟩
      rw [hcwd] at hlocation
      exact ⟨above, hlocation⟩
  replaceFile content s := by
    intro hcwd
    apply (hprecise.replaceFile file content s).mono
    · rw [hcwd]
      exact fun _ => id
    · exact fun _ => False.elim
  removeFile s := by
    intro hcwd
    apply (hprecise.removeFile file s).mono
    · rw [hcwd]
      exact fun _ => id
    · exact fun _ => False.elim
  log event s _ := (hprecise.log event s).bounded

variable {w w' : World} {lock fingerprint : String} {places made : Location → Prop}

/-- A file that is missing holds no marks. -/
theorem Filed.exists_bytes (h : Filed file lock fingerprint w) :
    ∃ bytes, w.tree.readBytes w.cwd file = .ok bytes := by
  obtain ⟨seen, hstored, hlock, -⟩ := h
  unfold stored? at hstored
  cases hread : w.tree.readBytes w.cwd file with
  | ok bytes => exact ⟨bytes, rfl⟩
  | error error =>
    rw [hread] at hstored
    cases error with
    | notFound =>
      obtain rfl := Option.some.inj hstored
      exact absurd hlock (OrderedSet.not_mem_empty lock)
    | _ => exact absurd hstored (by simp)

theorem Filed.of_same (h : Filed file lock fingerprint w) (htree : w'.tree = w.tree)
    (hcwd : w'.cwd = w.cwd) : Filed file lock fingerprint w' := by
  have hstored : stored? file w' = stored? file w := by rw [stored?, stored?, htree, hcwd]
  obtain ⟨seen, hseen, hin⟩ := h
  exact ⟨seen, hstored.trans hseen, hin⟩

/-- Marks that are in the file stay there when only other files change. -/
theorem Filed.of_bounded (h : Filed file lock fingerprint w)
    (hbounded : World.files.Bounded places made w w') (hout : ¬ places (target w.cwd file)) :
    Filed file lock fingerprint w' := by
  obtain ⟨bytes, hread⟩ := h.exists_bytes
  have hkept : w'.tree.readBytes w'.cwd file = .ok bytes := hbounded.readBytes hout hread
  have hstored : stored? file w' = stored? file w := by rw [stored?, stored?, hread, hkept]
  obtain ⟨seen, hseen, hin⟩ := h
  exact ⟨seen, hstored.trans hseen, hin⟩

end Marks

/-- Directories that a path leads to and files elsewhere do not give a directory other names than an
entry can have. -/
theorem Artifact.Named.of_bounded {w w' : World} {place : Location} {places : Location → Prop}
    (h : Artifact.Named w.tree place) (hcwd : ∀ name ∈ w.cwd, Simple name)
    (hbounded : World.files.Bounded places
      (fun location => ∃ path, location = target w.cwd path) w w')
    (hout : ∀ name, ¬ places (place ++ [name])) : Artifact.Named w'.tree place := by
  intro name hthere
  cases hentry : w'.tree.get? (place ++ [name]) with
  | none => exact absurd hentry hthere
  | some entry =>
    cases entry with
    | directory =>
      rcases hbounded.made _ hentry with hbefore | ⟨path, hpath⟩
      · have hbefore : w.tree.get? (place ++ [name]) = some .directory := hbefore
        apply h name
        rw [hbefore]
        simp
      · apply FileTree.simple_of_mem_target path hcwd
        rw [← hpath]
        simp
    | file content =>
      have hcontent : w'.tree.content? (place ++ [name]) = some content :=
        FileTree.content?_eq_some_iff.mpr hentry
      have hsame : w'.tree.content? (place ++ [name]) = w.tree.content? (place ++ [name]) :=
        hbounded.content? _ (hout name)
      rw [hsame, FileTree.content?_eq_some_iff] at hcontent
      apply h name
      rw [hcontent]
      simp

/-! ## 3. The main statement -/

namespace Refresh

variable {refresh refresh' : Refresh} {ledger : Ledger} {w w' : World} {bytes : ByteArray}

/-- An action that has nothing to do: its run is skipped, and no file and no directory changes. -/
def Settled (refresh : Refresh) (ledger : Ledger) (w : World) : Prop :=
  ∃ refresh' w', (refresh.runIfDue ledger : StateM World _).run w = ((.ok none, refresh'), w') ∧
    w'.tree = w.tree ∧ w'.cwd = w.cwd

/-- An action for the same artifacts that is opened anew over the same files. -/
def reopened (refresh : Refresh) : Refresh :=
  { refresh with marks := .new refresh.marks.file refresh.marks.lockFile }

/-- Files that do not get in each other's way: the lock file can be read, it is not the file of the
marks, and neither of them stands among the artifacts. -/
structure WellPlaced (refresh : Refresh) (bytes : ByteArray) (w : World) : Prop where
  lock : w.tree.readBytes w.cwd refresh.marks.lockFile = .ok bytes
  apart : target w.cwd refresh.marks.lockFile ≠ target w.cwd refresh.marks.file
  lock_outside : ¬ Artifact.Inside w.cwd (Artifact.directory refresh.space refresh.output)
    (target w.cwd refresh.marks.lockFile)
  marks_outside : ¬ Artifact.Inside w.cwd (Artifact.directory refresh.space refresh.output)
    (target w.cwd refresh.marks.file)
  /-- Names are what they are in a file system. -/
  cwd : ∀ name ∈ w.cwd, Simple name
  named : Artifact.Named w.tree (target w.cwd (Artifact.directory refresh.space refresh.output))

/-- A fingerprint that is known is due if the index is missing. -/
theorem run_check_of_known {marks : Marks} {fingerprint : String}
    (hnew : (refresh.marks.isNew fingerprint : StateM World _).run w = ((false, marks), w)) :
    (refresh.check fingerprint : StateM World _).run w
      = ((!w.tree.isFile w.cwd (Artifact.indexPath refresh.space refresh.output),
        { refresh with marks := marks }), w) := by
  rw [check, run_bind, hnew]
  rfl

/-- A run finds nothing to do if the fingerprint is known and the index is there. -/
theorem settled_of_known {marks : Marks}
    (hnew : (refresh.marks.isNew (refresh.fingerprint ledger) : StateM World _).run w
      = ((false, marks), w))
    (hindex : w.tree.isFile w.cwd (Artifact.indexPath refresh.space refresh.output) = true) :
    refresh.Settled ledger w := by
  have hrun : (refresh.runIfDue ledger : StateM World _).run w
      = ((.ok none, { refresh with marks := marks }),
        ((Host.debug "analyzer artifacts up to date" [("namespace", refresh.space.text)] :
          StateM World Unit).run w).2) := by
    rw [runIfDue, run_bind, run_check_of_known hnew, hindex]
    rfl
  exact ⟨_, _, hrun, rfl, rfl⟩

/-- A run whose fingerprint is known writes the artifacts if the index is missing. -/
theorem run_of_missing {marks : Marks} {report : Artifact.Report}
    (hnew : (refresh.marks.isNew (refresh.fingerprint ledger) : StateM World _).run w
      = ((false, marks), w))
    (hindex : w.tree.isFile w.cwd (Artifact.indexPath refresh.space refresh.output) = false)
    (hgenerate : (Artifact.generate ledger refresh.space refresh.output :
      ExceptT ArtifactError (StateM World) _).run.run w = (.ok report, w')) :
    (refresh.runIfDue ledger : StateM World _).run w
      = ((.ok (some report), { refresh with marks := marks }), w') := by
  rw [runIfDue, run_bind, run_check_of_known hnew, hindex]
  show ((refresh.run ledger >>= _ : StateM World _).run w) = _
  rw [run_bind, run, hgenerate]
  rfl

/-- An action that is opened anew has something to do unless the file holds its marks. -/
theorem filed_of_settled (hlock : w.tree.readBytes w.cwd refresh.marks.lockFile = .ok bytes)
    (h : refresh.reopened.Settled ledger w) :
    Marks.Filed refresh.marks.file (Sha256.hexDigest bytes) (refresh.fingerprint ledger) w := by
  obtain ⟨refresh', w', hrun, htree, hcwd⟩ := h
  obtain ⟨fresh, w₁, hnew, -, -, ⟨-, rfl, -, event, rfl⟩ | ⟨report, hreport, -⟩⟩ :=
    runIfDue_cases hrun
  · have hasked : ((Marks.new refresh.marks.file refresh.marks.lockFile).isNew
        (refresh.fingerprint ledger) : StateM World _).run w = ((false, refresh'.marks), w₁) := hnew
    have hlocked : w.tree.readBytes w.cwd
        (Marks.new refresh.marks.file refresh.marks.lockFile).lockFile = .ok bytes := hlock
    obtain ⟨-, hremembers, hcourse⟩ := Marks.isNew_sound hlocked hasked (Marks.sound_of_known hasked)
    -- Nothing was in memory, so what is there now is what the file holds.
    have hfiled : Marks.Filed refresh.marks.file (Sha256.hexDigest bytes)
        (refresh.fingerprint ledger) w₁ := by
      rcases hcourse with ⟨⟨seen, hseen, -⟩, -⟩ | ⟨-, hmirrored⟩
      · exact absurd hseen (by simp [Marks.new])
      · exact hmirrored.filed hremembers
    exact hfiled.of_same htree.symm hcwd.symm
  · exact absurd hreport (by simp)

/-- Asking the marks touches their file, and the files stay out of each other's way. -/
theorem WellPlaced.asked (h : refresh.WellPlaced bytes w) {fingerprint : String} {fresh : Bool}
    {marks : Marks}
    (hnew : (refresh.marks.isNew fingerprint : StateM World _).run w = ((fresh, marks), w')) :
    refresh.WellPlaced bytes w' := by
  have hbounded : World.files.Bounded (· = target w.cwd refresh.marks.file)
      (fun location => ∃ path, location = target w.cwd path) w w' :=
    (Marks.frame_isNew (Marks.respected_bounded World.precise) rfl hnew).2 rfl
  have hcwd : w'.cwd = w.cwd := hbounded.cwd
  constructor
  · exact hbounded.readBytes h.apart h.lock
  · rw [hcwd]
    exact h.apart
  · rw [hcwd]
    exact h.lock_outside
  · rw [hcwd]
    exact h.marks_outside
  · rw [hcwd]
    exact h.cwd
  · rw [hcwd]
    apply h.named.of_bounded h.cwd hbounded
    intro name hname
    exact h.marks_outside ⟨name, hname.symm⟩

/-- Writing the artifacts touches artifacts. -/
theorem WellPlaced.bounded (h : refresh.WellPlaced bytes w) {report : Artifact.Report}
    (hgenerate : (Artifact.generate ledger refresh.space refresh.output :
      ExceptT ArtifactError (StateM World) _).run.run w = (.ok report, w')) :
    World.files.Bounded
      (Artifact.ArtifactPlace (target w.cwd (Artifact.directory refresh.space refresh.output)))
      (FileTree.OnTheWay w.cwd (Artifact.directory refresh.space refresh.output)) w w' :=
  Artifact.stays_of_generate World.precise h.named hgenerate rfl

/-- Writing the artifacts touches neither the lock file nor the file of the marks. -/
theorem WellPlaced.written (h : refresh.WellPlaced bytes w) {report : Artifact.Report}
    (hgenerate : (Artifact.generate ledger refresh.space refresh.output :
      ExceptT ArtifactError (StateM World) _).run.run w = (.ok report, w')) :
    w'.tree.readBytes w'.cwd refresh.marks.lockFile = .ok bytes ∧
      ∀ lock fingerprint, Marks.Filed refresh.marks.file lock fingerprint w →
        Marks.Filed refresh.marks.file lock fingerprint w' := by
  have hbounded := h.bounded hgenerate
  constructor
  · apply hbounded.readBytes _ h.lock
    rintro ⟨stem, hplace⟩
    exact h.lock_outside ⟨_, hplace⟩
  · intro lock fingerprint hfiled
    apply hfiled.of_bounded hbounded
    rintro ⟨stem, hplace⟩
    exact h.marks_outside ⟨_, hplace⟩

/-- What a run that has written artifacts leaves behind: the lock file, the index, and both marks in
memory. The marks are in the file as well, unless the run found them in memory and the file did not
hold them. -/
theorem kept_of_run {report : Artifact.Report} (hplaced : refresh.WellPlaced bytes w)
    (hrun : (refresh.runIfDue ledger : StateM World _).run w = ((.ok (some report), refresh'), w'))
    (hsound : refresh'.marks.degraded = false) :
    (refresh'.space = refresh.space ∧ refresh'.output = refresh.output ∧
      Marks.Sane refresh.marks.file refresh.marks.lockFile refresh'.marks ∧
      refresh'.marks.Remembers (Sha256.hexDigest bytes) (refresh.fingerprint ledger)) ∧
    w'.tree.readBytes w'.cwd refresh.marks.lockFile = .ok bytes ∧
    w'.tree.isFile w'.cwd (Artifact.indexPath refresh.space refresh.output) = true ∧
    ((refresh.marks.Remembers (Sha256.hexDigest bytes) (refresh.fingerprint ledger) →
        Marks.Filed refresh.marks.file (Sha256.hexDigest bytes) (refresh.fingerprint ledger) w) →
      Marks.Filed refresh.marks.file (Sha256.hexDigest bytes) (refresh.fingerprint ledger) w') := by
  obtain ⟨fresh, w₁, hnew, hspace, houtput, ⟨hnone, -⟩ | ⟨report', -, hgenerate⟩⟩ :=
    runIfDue_cases hrun
  · exact absurd hnone (by simp)
  obtain ⟨hsane, hremembers, hcourse⟩ := Marks.isNew_sound hplaced.lock hnew hsound
  obtain ⟨hlock, hfiled⟩ := (hplaced.asked hnew).written hgenerate
  obtain ⟨_, _, -, -, -, -, -, hindex, -⟩ := Artifact.written_of_generate hgenerate
  refine ⟨⟨hspace, houtput, hsane, hremembers⟩, hlock, FileTree.isFile_of_readBytes hindex, ?_⟩
  intro hbefore
  apply hfiled
  -- Marks that were in memory are not written again, so they have to be in the file already.
  rcases hcourse with ⟨hheld, -, rfl⟩ | ⟨-, hmirrored⟩
  · exact hbefore hheld
  · exact hmirrored.filed hremembers

/-- **A run settles.** If the lock file can be read, the files do not get in each other's way, and a
run has written artifacts without a fault of the marks, then the action that made it has nothing to do
any more. An action that is opened anew over the same files has nothing to do exactly if the file of
the marks holds both the digest of the lock file and the fingerprint; and so it does, unless the first
action had both in memory before its run and the file did not hold them then. -/
theorem run_settles {report : Artifact.Report} (hplaced : refresh.WellPlaced bytes w)
    (hrun : (refresh.runIfDue ledger : StateM World _).run w = ((.ok (some report), refresh'), w'))
    (hsound : refresh'.marks.degraded = false) :
    let file := refresh.marks.file
    let lock := Sha256.hexDigest bytes
    let fingerprint := refresh.fingerprint ledger
    refresh'.Settled ledger w' ∧
      (refresh'.reopened.Settled ledger w' ↔ Marks.Filed file lock fingerprint w') ∧
      ((refresh.marks.Remembers lock fingerprint → Marks.Filed file lock fingerprint w) →
        Marks.Filed file lock fingerprint w') := by
  intro file lock fingerprint
  obtain ⟨⟨hspace, houtput, hsane, hremembers⟩, hlock, hindex, hfiled⟩ :=
    kept_of_run hplaced hrun hsound
  -- The action is the same but for what is in memory.
  have hsame : refresh'.fingerprint ledger = refresh.fingerprint ledger := by
    rw [Refresh.fingerprint, fingerprintText, hspace, houtput]
    rfl
  have hfile : refresh'.marks.file = refresh.marks.file := hsane.file_eq
  rw [← hspace, ← houtput] at hindex
  rw [← hsane.lockFile_eq] at hlock
  refine ⟨?_, ?_, hfiled⟩
  · rw [← hsame] at hremembers
    exact settled_of_known (Marks.isNew_of_remembers hlock hsound hremembers) hindex
  · show _ ↔ Marks.Filed refresh.marks.file _ (refresh.fingerprint ledger) w'
    rw [← hsame, ← hfile]
    constructor
    · exact filed_of_settled hlock
    · intro hthere
      obtain ⟨marks, hknown⟩ := Marks.isNew_of_filed hlock hthere
      exact settled_of_known hknown hindex

/-! ## 4. Two actions over the same files -/

/-- In a place where nothing stands there are no names to be wrong. -/
theorem named_of_bare {tree : FileTree} {place : Location}
    (h : ∀ location ∈ tree.entries.keys, location.dropLast ≠ place) : Artifact.Named tree place := by
  intro name hthere
  have hkey : place ++ [name] ∈ tree.entries.keys := by
    rw [FileTree.get?, if_neg (by simp)] at hthere
    apply (OrderedMap.contains_iff_mem_keys _ _).mp
    exact Option.isSome_iff_ne_none.mpr hthere
  exact absurd List.dropLast_concat (h _ hkey)

/-- Files side by side, and artifacts in a directory that is not there yet. -/
theorem wellPlaced_of_bare (output : String) {refresh : Refresh} {w : World}
    (hrefresh : refresh.marks.file = ⟨"cache.json"⟩ ∧ refresh.marks.lockFile = ⟨"lock"⟩)
    (hdirectory : target w.cwd (Artifact.directory refresh.space refresh.output)
      = [output, "App"]) (hcwd : w.cwd = [])
    (hlock : w.tree.readBytes w.cwd ⟨"lock"⟩ = .ok "x".toUTF8)
    (hbare : ∀ location ∈ w.tree.entries.keys, location.dropLast ≠ [output, "App"]) :
    refresh.WellPlaced "x".toUTF8 w := by
  have hfile : target [] ⟨"cache.json"⟩ = ["cache.json"] := by decide
  have hlockFile : target [] ⟨"lock"⟩ = ["lock"] := by decide
  constructor
  · rw [hrefresh.2]
    exact hlock
  · rw [hrefresh.1, hrefresh.2, hcwd, hfile, hlockFile]
    simp
  · rintro ⟨name, hname⟩
    rw [hdirectory, hrefresh.2, hcwd, hlockFile] at hname
    exact absurd hname (by simp)
  · rintro ⟨name, hname⟩
    rw [hdirectory, hrefresh.1, hcwd, hfile] at hname
    exact absurd hname (by simp)
  · rw [hcwd]
    simp
  · rw [hdirectory]
    exact named_of_bare hbare

/-- The marks of an action that has asked for them before. -/
def askedMarks : OrderedSet String :=
  (OrderedSet.empty.insert (Sha256.hexDigest "x".toUTF8)).insert
    ((actionFor "out").fingerprint (.new .enabled))

/-- An action with these marks in memory. -/
def asked : Refresh :=
  { actionFor "out" with marks := ⟨⟨"cache.json"⟩, ⟨"lock"⟩, some askedMarks, false⟩ }

theorem remembers_asked : asked.marks.Remembers (Sha256.hexDigest "x".toUTF8)
    (asked.fingerprint (.new .enabled)) := by
  refine ⟨askedMarks, rfl, ?_, ?_⟩
  · rw [askedMarks, OrderedSet.mem_insert, OrderedSet.mem_insert]
    exact .inl (.inr rfl)
  · rw [askedMarks, OrderedSet.mem_insert]
    exact .inr rfl

/-- While the index is missing, the action writes the artifacts and does not touch the marks. -/
theorem run_asked (hplaced : asked.WellPlaced "x".toUTF8 w)
    (hindex : w.tree.isFile w.cwd (Artifact.indexPath asked.space asked.output) = false)
    (hwrites : ((Artifact.generate (.new .enabled) asked.space asked.output :
      ExceptT ArtifactError (StateM World) _).run.run w).1.isOk = true) :
    ∃ report w', (Artifact.generate (.new .enabled) asked.space asked.output :
        ExceptT ArtifactError (StateM World) _).run.run w = (.ok report, w') ∧
      (asked.runIfDue (.new .enabled) : StateM World _).run w
        = ((.ok (some report), asked), w') := by
  have hnew : (asked.marks.isNew (asked.fingerprint (.new .enabled)) : StateM World _).run w
      = ((false, asked.marks), w) := Marks.isNew_of_remembers hplaced.lock rfl remembers_asked
  rcases hgenerate : (Artifact.generate (.new .enabled) asked.space asked.output :
    ExceptT ArtifactError (StateM World) _).run.run w with ⟨_ | report, w'⟩
  · rw [hgenerate] at hwrites
    exact absurd hwrites (by simp [Except.isOk, Except.toBool])
  · exact ⟨report, w', rfl, run_of_missing hnew hindex hgenerate⟩

/-- A machine on which the marks are in their file. -/
def filedWorld : World :=
  { Site.sampleWorld with
    tree := Site.sampleWorld.tree.insert ["cache.json"] (.file (Marks.content askedMarks)) }

/-- After a run for the sake of the index nobody has anything to do if the marks are in their file. -/
theorem run_settles_filed :
    ∃ report w', asked.WellPlaced "x".toUTF8 filedWorld ∧
      (asked.runIfDue (.new .enabled) : StateM World _).run filedWorld
        = ((.ok (some report), asked), w') ∧
      asked.marks.degraded = false ∧
      asked.Settled (.new .enabled) w' ∧ asked.reopened.Settled (.new .enabled) w' := by
  have hplaced : asked.WellPlaced "x".toUTF8 filedWorld :=
    wellPlaced_of_bare "out" ⟨rfl, rfl⟩ (by decide +kernel) rfl rfl (by decide)
  obtain ⟨report, w', -, hrun⟩ := run_asked hplaced (by decide +kernel) (by decide +kernel)
  have hsound : asked.marks.degraded = false := rfl
  obtain ⟨hsettled, hreopened, hfiled⟩ := run_settles hplaced hrun hsound
  refine ⟨report, w', hplaced, hrun, hsound, hsettled, hreopened.mpr (hfiled fun _ => ?_)⟩
  obtain ⟨seen, hseen, hin⟩ := remembers_asked
  obtain rfl := Option.some.inj hseen
  have hread : filedWorld.tree.readBytes filedWorld.cwd asked.marks.file
      = .ok (Marks.content askedMarks) := rfl
  have hdecode : (Json.ofBytes? (Marks.content askedMarks) : Option (List String))
      = some askedMarks.toList := Json.ofBytes?_toText askedMarks.toList
  have hstored := Marks.stored?_of_decoded hread hdecode
  rw [OrderedSet.ofList_toList] at hstored
  exact ⟨askedMarks, hstored, hin⟩

/-- **A run need not settle for an action that is opened anew.** Here the marks are in memory and their
file was lost. The run is due for the sake of the index alone, so it does not write the file again. -/
theorem run_unsettled :
    ∃ report refresh' w', asked.WellPlaced "x".toUTF8 Site.sampleWorld ∧
      (asked.runIfDue (.new .enabled) : StateM World _).run Site.sampleWorld
        = ((.ok (some report), refresh'), w') ∧
      refresh'.marks.degraded = false ∧ ¬ refresh'.reopened.Settled (.new .enabled) w' := by
  have hplaced : asked.WellPlaced "x".toUTF8 Site.sampleWorld :=
    wellPlaced_of_bare "out" ⟨rfl, rfl⟩ (by decide +kernel) rfl rfl (by decide)
  obtain ⟨report, w', hgenerate, hrun⟩ :=
    run_asked hplaced (by decide +kernel) (by decide +kernel)
  refine ⟨report, asked, w', hplaced, hrun, ?_, ?_⟩
  · rfl
  intro hsettled
  -- The run has written artifacts and nothing else, so the file is still missing.
  obtain ⟨hlock, -⟩ := hplaced.written hgenerate
  obtain ⟨bytes, hread⟩ := (filed_of_settled hlock hsettled).exists_bytes
  have hcontent := FileTree.content?_of_readBytes hread
  have hbounded := hplaced.bounded hgenerate
  have hcwd : w'.cwd = [] := hbounded.cwd
  have hfile : target w'.cwd asked.marks.file = ["cache.json"] := by
    rw [hcwd]
    decide +kernel
  have hsame : w'.tree.content? ["cache.json"] = Site.sampleWorld.tree.content? ["cache.json"] := by
    apply hbounded.content?
    rintro ⟨stem, hplace⟩
    have hdirectory : target Site.sampleWorld.cwd (Artifact.directory asked.space asked.output)
        = ["out", "App"] := by decide +kernel
    rw [hdirectory] at hplace
    exact absurd hplace (by simp)
  have hmissing : Site.sampleWorld.tree.content? ["cache.json"] = none := rfl
  rw [hfile, hsame, hmissing] at hcontent
  exact absurd hcontent (by simp)

end Refresh

end Graft
