/-
When a skipped run was right to be skipped.

The artifacts of one namespace are kept up to date by any number of actions, each with its own image
of the same marks, while registrations come and go. A run that is skipped finds the index of the
ledger whose artifacts were written last, and the present ledger was written at some time before.
Marks are a set, though, and a set does not tell which of its elements came last: the index is the
one of the present ledger exactly if nothing else was written after it.

The main result is `Site.skipped_sound_iff`. Its witness is a run that is skipped rightly; behind it
stands a run that is skipped although the index belongs to another ledger.
-/
import Graft.Proofs.FingerprintText
import Graft.Proofs.Generation
import Graft.Proofs.MarksKept
import Graft.Refresh

set_option autoImplicit false

namespace Graft

open FileTree (Location target)
open World (Within)

/-! ## 1. What a run of an action comes to -/

namespace Refresh

variable {refresh refresh' : Refresh} {ledger : Ledger} {fingerprint : String} {w w' : World}

/-- A check asks the marks first, and looks for the index if they know the fingerprint. -/
theorem check_cases {due : Bool}
    (h : (refresh.check fingerprint : StateM World _).run w = ((due, refresh'), w')) :
    ∃ fresh, (refresh.marks.isNew fingerprint : StateM World _).run w
        = ((fresh, refresh'.marks), w') ∧
      refresh'.space = refresh.space ∧ refresh'.output = refresh.output ∧
      due = (fresh ||
        !w'.tree.isFile w'.cwd (Artifact.indexPath refresh.space refresh.output)) := by
  rw [check, run_bind] at h
  rcases hnew : (refresh.marks.isNew fingerprint : StateM World _).run w with ⟨⟨fresh, marks⟩, w₁⟩
  rw [hnew] at h
  cases fresh with
  | true =>
    obtain ⟨⟨rfl, rfl⟩, rfl⟩ := (Prod.mk.inj h).imp_left Prod.mk.inj
    exact ⟨true, rfl, rfl, rfl, rfl⟩
  | false =>
    obtain ⟨⟨rfl, rfl⟩, rfl⟩ := (Prod.mk.inj h).imp_left Prod.mk.inj
    exact ⟨false, rfl, rfl, rfl, (Bool.false_or _).symm⟩

/-- A run that ends well is skipped, since its fingerprint is known and the index is there, or it
writes the artifacts. -/
theorem runIfDue_cases {result : Option Artifact.Report}
    (h : (refresh.runIfDue ledger : StateM World _).run w = ((.ok result, refresh'), w')) :
    ∃ fresh w₁, (refresh.marks.isNew (refresh.fingerprint ledger) : StateM World _).run w
        = ((fresh, refresh'.marks), w₁) ∧
      refresh'.space = refresh.space ∧ refresh'.output = refresh.output ∧
      ((result = none ∧ fresh = false ∧
          w₁.tree.isFile w₁.cwd (Artifact.indexPath refresh.space refresh.output) = true ∧
          ∃ event, w' = { w₁ with events := event :: w₁.events }) ∨
        ∃ report, result = some report ∧
          (Artifact.generate ledger refresh.space refresh.output :
            ExceptT ArtifactError (StateM World) _).run.run w₁ = (.ok report, w')) := by
  rw [runIfDue, run_bind] at h
  rcases hcheck : (refresh.check (refresh.fingerprint ledger) : StateM World _).run w with
    ⟨⟨due, refresh₁⟩, w₁⟩
  rw [hcheck] at h
  obtain ⟨fresh, hnew, hspace, houtput, hdue⟩ := check_cases hcheck
  cases due with
  | true =>
    simp only [if_true] at h
    rw [run_bind, Refresh.run, hspace, houtput] at h
    rcases hrun : (Artifact.generate ledger refresh.space refresh.output :
      ExceptT ArtifactError (StateM World) _).run.run w₁ with ⟨error | report, w₂⟩
    · rw [hrun] at h
      exact absurd (Prod.mk.inj (Prod.mk.inj h).1).1 (by simp)
    · rw [hrun] at h
      obtain ⟨⟨hresult, rfl⟩, rfl⟩ := (Prod.mk.inj h).imp_left Prod.mk.inj
      exact ⟨fresh, w₁, hnew, hspace, houtput, .inr ⟨report, (Except.ok.inj hresult).symm, hrun⟩⟩
  | false =>
    simp only [Bool.false_eq_true, if_false] at h
    rw [run_bind, run_pure] at h
    obtain ⟨⟨hresult, rfl⟩, hworld⟩ := (Prod.mk.inj h).imp_left Prod.mk.inj
    simp only [Bool.false_eq, Bool.or_eq_false_iff, Bool.not_eq_false'] at hdue
    exact ⟨fresh, w₁, hnew, hspace, houtput,
      .inl ⟨(Except.ok.inj hresult).symm, hdue.1, hdue.2, _, hworld.symm⟩⟩

end Refresh

/-! ## 2. Histories -/

/-- Where the artifacts of a namespace go, and which files decide whether they are due. -/
structure Site where
  space : Namespace
  output : Path
  /-- Where the marks are kept. -/
  file : Path
  lockFile : Path

/-- What there is after some events. -/
structure Stage where
  ledger : Ledger
  /-- The marks of every action. One that was not used yet has fresh ones. -/
  marks : Nat → Marks
  world : World
  /-- The ledgers whose artifacts were written, latest first. -/
  written : List Ledger

/-- What happens around the artifacts of a namespace. -/
inductive Occurrence
  | record (destination name : String) (signature : Signature) (source : Provenance)
  | reset
  /-- An action writes the artifacts if they are due. -/
  | refresh (action : Nat)

namespace Site

/-- An action with given marks. -/
def action (site : Site) (marks : Marks) : Refresh := ⟨site.space, site.output, marks⟩

/-- The text that identifies what would be written for a ledger. -/
def fingerprintText (site : Site) (ledger : Ledger) : String :=
  (site.action (.new site.file site.lockFile)).fingerprintText ledger

/-- The digest of that text. -/
def fingerprint (site : Site) (ledger : Ledger) : String :=
  Sha256.hexOfText (site.fingerprintText ledger)

/-- The index of the artifacts. -/
def indexPath (site : Site) : Path := Artifact.indexPath site.space site.output

/-- The first stage: no action was used. -/
def start (site : Site) (ledger : Ledger) (world : World) : Stage :=
  ⟨ledger, fun _ => .new site.file site.lockFile, world, []⟩

/-- The outcome of an action and the stage after it. -/
def attempt (site : Site) (stage : Stage) (i : Nat) :
    Except ArtifactError (Option Artifact.Report) × Stage :=
  let ((result, refresh), world) :=
    ((site.action (stage.marks i)).runIfDue stage.ledger : StateM World _).run stage.world
  (result, {
    ledger := stage.ledger
    marks := fun j => if j = i then refresh.marks else stage.marks j
    world := world
    written := match result with
      | .ok (some _) => stage.ledger :: stage.written
      | _ => stage.written })

/-- The stage after an event. There is none if artifacts could not be written. -/
def step (site : Site) (stage : Stage) : Occurrence → Option Stage
  | .record destination name signature source =>
    some { stage with ledger := (stage.ledger.record destination name signature source).2 }
  | .reset => some { stage with ledger := stage.ledger.reset }
  | .refresh i =>
    match site.attempt stage i with
    | (.ok _, next) => some next
    | (.error _, _) => none

/-- The stage after a history. -/
def run (site : Site) (stage : Stage) (events : List Occurrence) : Option Stage :=
  events.foldlM site.step stage

/-- A machine on which nobody worked for a site yet, and whose files do not get in each other's
way: neither the marks nor the lock file are artifacts, and they are two files. -/
structure Ready (site : Site) (world : World) : Prop where
  index_absent : world.tree.content? (target world.cwd site.indexPath) = none
  marks_absent : world.tree.content? (target world.cwd site.file) = none
  marks_outside : ¬ Artifact.Inside world.cwd (Artifact.directory site.space site.output)
    (target world.cwd site.file)
  lock_outside : ¬ Artifact.Inside world.cwd (Artifact.directory site.space site.output)
    (target world.cwd site.lockFile)
  apart : target world.cwd site.lockFile ≠ target world.cwd site.file

/-! ## 3. The invariant of a history -/

variable {site : Site} {world : World} {stage stage' : Stage}

/-- The content of the lock file. -/
def lockContent? (site : Site) (world : World) : Option ByteArray :=
  world.tree.content? (target world.cwd site.lockFile)

/-- The marks that a history can leave: the digest of the lock file, and the fingerprints of ledgers
that were written. -/
def Allowed (site : Site) (world : World) (written : List Ledger) (mark : String) : Prop :=
  (∃ bytes, site.lockContent? world = some bytes ∧ mark = Sha256.hexDigest bytes) ∨
    ∃ ledger ∈ written, mark = site.fingerprint ledger

/-- What holds at every stage of a history that starts on a machine, if only some marks are kept. -/
structure Upheld (site : Site) (world : World) (allowed : String → Prop) (stage : Stage) : Prop where
  cwd : stage.world.cwd = world.cwd
  /-- The index is the one of the ledger that was written last. -/
  index : ∀ bytes, stage.world.tree.content? (target world.cwd site.indexPath) = some bytes →
    ∃ latest older, stage.written = latest :: older ∧
      bytes = Artifact.indexContent site.space latest
  lock : ∀ bytes, site.lockContent? stage.world = some bytes →
    site.lockContent? world = some bytes
  files : ∀ i, (stage.marks i).file = site.file ∧ (stage.marks i).lockFile = site.lockFile
  memory : ∀ i, Marks.InMemory allowed (stage.marks i)
  disk : Marks.OnDisk site.file allowed stage.world

variable {allowed allowed' : String → Prop}

theorem upheld_start (ledger : Ledger) (h : site.Ready world) :
    site.Upheld world allowed (site.start ledger world) where
  cwd := rfl
  index bytes hbytes := absurd (h.index_absent.symm.trans hbytes) (by simp)
  lock _ hbytes := hbytes
  files _ := ⟨rfl, rfl⟩
  memory i seen hseen := absurd hseen (by simp [start, Marks.new])
  disk bytes values hbytes := absurd (h.marks_absent.symm.trans hbytes) (by simp)

theorem Upheld.mono (h : site.Upheld world allowed stage)
    (hall : ∀ mark, allowed mark → allowed' mark) : site.Upheld world allowed' stage :=
  ⟨h.cwd, h.index, h.lock, h.files, fun i => (h.memory i).mono hall, h.disk.mono hall⟩

/-- The index is an artifact. -/
theorem index_inside (site : Site) (cwd : Location) :
    Artifact.Inside cwd (Artifact.directory site.space site.output) (target cwd site.indexPath) :=
  ⟨Artifact.indexFile, FileTree.target_entry _ _ Artifact.simple_indexFile⟩

/-- Nothing new in the lock file where nothing was put. -/
theorem lockContent?_of_within {region : Location → Prop} {w w' : World}
    (hwithin : Within region w w') (hout : ¬ region (target w.cwd site.lockFile))
    {bytes : ByteArray} (h : site.lockContent? w' = some bytes) :
    site.lockContent? w = some bytes := by
  rw [lockContent?, hwithin.cwd] at h
  exact hwithin.content? hout h

/-- A question to the marks touches neither the index nor the lock file, and records the present
fingerprint at most. If it is not new, it was allowed. -/
theorem upheld_asked (hready : site.Ready world) (h : site.Upheld world allowed stage)
    (hlock : ∀ bytes, site.lockContent? world = some bytes → allowed (Sha256.hexDigest bytes))
    {i : Nat} {fingerprint : String} {fresh : Bool} {marks : Marks} {w : World}
    (hrun : ((stage.marks i).isNew fingerprint : StateM World _).run stage.world
      = ((fresh, marks), w)) :
    site.Upheld world (fun mark => allowed mark ∨ mark = fingerprint)
        { stage with marks := fun j => if j = i then marks else stage.marks j, world := w } ∧
      (fresh = false → allowed fingerprint) := by
  have hkept : Marks.Kept stage.world site.file site.lockFile allowed (stage.marks i)
      stage.world :=
    ⟨(h.files i).1, (h.files i).2, .refl _ _, h.memory i, h.disk⟩
  obtain ⟨hafter, hfresh⟩ := Marks.isNew_spec hkept
    (fun bytes hbytes => hlock bytes (h.lock bytes hbytes)) hrun
  -- Only the file of the marks was written, which is neither the index nor the lock file.
  refine ⟨⟨hafter.within.cwd.trans h.cwd, ?_, ?_, ?_, ?_, hafter.disk⟩, hfresh⟩
  · intro bytes hbytes
    refine h.index bytes (hafter.within.content? ?_ hbytes)
    intro heq
    rw [Marks.Cell, h.cwd] at heq
    exact hready.marks_outside (heq ▸ site.index_inside world.cwd)
  · intro bytes hbytes
    refine h.lock bytes (lockContent?_of_within hafter.within ?_ hbytes)
    intro heq
    rw [Marks.Cell, h.cwd] at heq
    exact hready.apart heq
  · intro j
    by_cases hj : j = i
    · simp only [if_pos hj]
      exact ⟨hafter.file_eq, hafter.lockFile_eq⟩
    · simp only [if_neg hj]
      exact h.files j
  · intro j
    by_cases hj : j = i
    · simp only [if_pos hj]
      exact hafter.memory
    · simp only [if_neg hj]
      exact (h.memory j).mono fun _ => .inl

/-- A generation that succeeds leaves its index, and neither the marks nor the lock file change. -/
theorem upheld_generated (hready : site.Ready world) (h : site.Upheld world allowed stage)
    {report : Artifact.Report} {w : World}
    (hrun : (Artifact.generate stage.ledger site.space site.output :
      ExceptT ArtifactError (StateM World) _).run.run stage.world = (.ok report, w)) :
    site.Upheld world allowed
      { stage with world := w, written := stage.ledger :: stage.written } := by
  have hwithin : Within (Artifact.Inside world.cwd (Artifact.directory site.space site.output))
      stage.world w := (Artifact.keeps_generate _ _ _).of_run hrun h.cwd
  refine ⟨hwithin.cwd.trans h.cwd, ?_, ?_, h.files, h.memory, ?_⟩
  · intro bytes hbytes
    have hindex := Artifact.indexContent_of_generate hrun
    rw [h.cwd] at hindex
    exact ⟨stage.ledger, stage.written, rfl, Option.some.inj (hbytes.symm.trans hindex)⟩
  · intro bytes hbytes
    refine h.lock bytes (lockContent?_of_within hwithin ?_ hbytes)
    rw [h.cwd]
    exact hready.lock_outside
  · refine h.disk.of_within hwithin ?_
    rw [h.cwd]
    exact hready.marks_outside

/-! ## 4. Every stage of a history -/

/-- An attempt that ends well: the marks are asked, and then the artifacts are written or not. -/
theorem attempt_cases {i : Nat} {result : Option Artifact.Report}
    (h : site.attempt stage i = (.ok result, stage')) :
    ∃ fresh marks w, ((stage.marks i).isNew (site.fingerprint stage.ledger) : StateM World _).run
        stage.world = ((fresh, marks), w) ∧
      ((result = none ∧ fresh = false ∧ w.tree.isFile w.cwd site.indexPath = true ∧
          ∃ event, stage' = { stage with
            marks := fun j => if j = i then marks else stage.marks j
            world := { w with events := event :: w.events } }) ∨
        ∃ report w', result = some report ∧
          (Artifact.generate stage.ledger site.space site.output :
            ExceptT ArtifactError (StateM World) _).run.run w = (.ok report, w') ∧
          stage' = {
            ledger := stage.ledger
            marks := fun j => if j = i then marks else stage.marks j
            world := w'
            written := stage.ledger :: stage.written }) := by
  unfold attempt at h
  rcases hrun : ((site.action (stage.marks i)).runIfDue stage.ledger : StateM World _).run
    stage.world with ⟨⟨outcome, refresh⟩, w'⟩
  rw [hrun] at h
  obtain ⟨rfl, rfl⟩ := Prod.mk.inj h
  obtain ⟨fresh, w, hnew, -, -, hend⟩ := Refresh.runIfDue_cases hrun
  refine ⟨fresh, refresh.marks, w, hnew, ?_⟩
  rcases hend with ⟨rfl, hfresh, hfile, event, rfl⟩ | ⟨report, rfl, hgenerate⟩
  · exact .inl ⟨rfl, hfresh, hfile, event, rfl⟩
  · exact .inr ⟨report, w', rfl, hgenerate, rfl⟩

theorem Allowed.cons {written : List Ledger} {mark : String}
    (h : site.Allowed world written mark) (ledger : Ledger) :
    site.Allowed world (ledger :: written) mark :=
  h.imp_right fun ⟨g, hg, hmark⟩ => ⟨g, List.mem_cons_of_mem ledger hg, hmark⟩

theorem upheld_attempt (hready : site.Ready world)
    (h : site.Upheld world (site.Allowed world stage.written) stage) {i : Nat}
    {result : Option Artifact.Report} (hrun : site.attempt stage i = (.ok result, stage')) :
    site.Upheld world (site.Allowed world stage'.written) stage' := by
  obtain ⟨fresh, marks, w, hnew, hend⟩ := attempt_cases hrun
  obtain ⟨hasked, hknown⟩ := upheld_asked hready h
    (fun bytes hbytes => .inl ⟨bytes, hbytes, rfl⟩) hnew
  rcases hend with ⟨rfl, hfresh, -, event, rfl⟩ | ⟨report, w', rfl, hgenerate, rfl⟩
  · -- Skipped: the fingerprint is not new, so it was allowed all along.
    have hall : ∀ mark, site.Allowed world stage.written mark ∨
        mark = site.fingerprint stage.ledger → site.Allowed world stage.written mark :=
      fun mark hmark => hmark.elim id fun heq => heq ▸ hknown hfresh
    have hsame := hasked.mono hall
    exact ⟨hsame.cwd, hsame.index, hsame.lock, hsame.files, hsame.memory, hsame.disk⟩
  · -- Written: the fingerprint now belongs to one of the ledgers that were.
    have hall : ∀ mark, site.Allowed world stage.written mark ∨
        mark = site.fingerprint stage.ledger →
          site.Allowed world (stage.ledger :: stage.written) mark :=
      fun mark hmark => hmark.elim (fun hold => hold.cons stage.ledger) fun heq =>
        .inr ⟨stage.ledger, List.mem_cons_self, heq⟩
    exact upheld_generated hready (hasked.mono hall) hgenerate

/-- Every event keeps the invariant. -/
theorem upheld_step (hready : site.Ready world)
    (h : site.Upheld world (site.Allowed world stage.written) stage) {event : Occurrence}
    (hstep : site.step stage event = some stage') :
    site.Upheld world (site.Allowed world stage'.written) stage' := by
  cases event with
  | record destination name signature source =>
    obtain rfl := Option.some.inj hstep
    exact ⟨h.cwd, h.index, h.lock, h.files, h.memory, h.disk⟩
  | reset =>
    obtain rfl := Option.some.inj hstep
    exact ⟨h.cwd, h.index, h.lock, h.files, h.memory, h.disk⟩
  | refresh i =>
    rw [step] at hstep
    split at hstep
    · next result next hrun =>
      obtain rfl := Option.some.inj hstep
      exact upheld_attempt hready h hrun
    · exact absurd hstep (by simp)

/-- **The invariant holds at every stage.** -/
theorem upheld_run (hready : site.Ready world)
    (h : site.Upheld world (site.Allowed world stage.written) stage) {events : List Occurrence}
    (hrun : site.run stage events = some stage') :
    site.Upheld world (site.Allowed world stage'.written) stage' := by
  induction events generalizing stage with
  | nil =>
    obtain rfl := Option.some.inj hrun
    exact h
  | cons event rest ih =>
    rw [run, List.foldlM_cons] at hrun
    obtain ⟨next, hstep, hrest⟩ := Option.bind_eq_some_iff.mp hrun
    exact ih (upheld_step hready h hstep) hrest

/-! ## 5. Skipped runs -/

/-- What was hashed for marks in a history: the content of the lock file, and the texts that identify
the ledgers that were written. -/
def hashed (site : Site) (world : World) (written : List Ledger) : List ByteArray :=
  (site.lockContent? world).toList ++ written.map fun ledger => (site.fingerprintText ledger).toUTF8

/-- The digest of the text that identifies the present ledger is the digest of no other text of the
history. -/
def Distinguished (site : Site) (world : World) (stage : Stage) : Prop :=
  ∀ bytes ∈ site.hashed world stage.written,
    Sha256.hexDigest bytes = site.fingerprint stage.ledger →
      bytes = (site.fingerprintText stage.ledger).toUTF8

/-- Equal texts need not be hashed. -/
instance (site : Site) (world : World) (stage : Stage) :
    Decidable (site.Distinguished world stage) :=
  decidable_of_iff (∀ bytes ∈ site.hashed world stage.written,
      bytes.data = (site.fingerprintText stage.ledger).toUTF8.data ∨
        Sha256.hexDigest bytes ≠ site.fingerprint stage.ledger)
    ⟨fun h bytes hbytes hdigest =>
        ByteArray.ext ((h bytes hbytes).resolve_right (not_not_intro hdigest)),
      fun h bytes hbytes => Decidable.or_iff_not_imp_right.mpr fun hdigest =>
        congrArg ByteArray.data (h bytes hbytes (Decidable.not_not.mp hdigest))⟩

/-- What identifies a ledger at a site starts with its fingerprint. -/
theorem fingerprint_eq_of_fingerprintText {ledger other : Ledger}
    (h : site.fingerprintText ledger = site.fingerprintText other) :
    ledger.fingerprint = other.fingerprint := by
  unfold fingerprintText Refresh.fingerprintText at h
  rw [← String.toList_inj] at h
  simp only [String.toList_append, List.append_assoc] at h
  exact String.toList_inj.mp (List.append_inj_left h
    (by rw [Ledger.length_toList_fingerprint, Ledger.length_toList_fingerprint]))

/-- A skipped run finds the index of the ledger that was written last, and asked for a mark that was
allowed. -/
theorem index_of_skipped (hready : site.Ready world)
    (h : site.Upheld world (site.Allowed world stage.written) stage) {i : Nat}
    (hskip : site.attempt stage i = (.ok none, stage')) :
    site.Allowed world stage.written (site.fingerprint stage.ledger) ∧
      ∃ latest older, stage.written = latest :: older ∧
        stage'.world.tree.readBytes stage'.world.cwd site.indexPath
          = .ok (Artifact.indexContent site.space latest) := by
  obtain ⟨fresh, marks, w, hnew, hend⟩ := attempt_cases hskip
  obtain ⟨hasked, hknown⟩ := upheld_asked hready h
    (fun bytes hbytes => .inl ⟨bytes, hbytes, rfl⟩) hnew
  rcases hend with ⟨-, hfresh, hfile, event, rfl⟩ | ⟨report, w', hnone, -⟩
  · obtain ⟨bytes, hread⟩ := FileTree.readBytes_of_isFile hfile
    have hcontent := FileTree.content?_of_readBytes hread
    rw [hasked.cwd] at hcontent
    obtain ⟨latest, older, hwritten, rfl⟩ := hasked.index bytes hcontent
    exact ⟨hknown hfresh, latest, older, hwritten, hread⟩
  · exact absurd hnone (by simp)

/-- If digests tell the texts of a history apart, a mark for the present ledger was left by one with
the same fingerprint. -/
theorem exists_written (hdigest : site.Distinguished world stage)
    (hlock : site.lockContent? world ≠ some (site.fingerprintText stage.ledger).toUTF8)
    (hallowed : site.Allowed world stage.written (site.fingerprint stage.ledger)) :
    ∃ earlier ∈ stage.written, earlier.fingerprint = stage.ledger.fingerprint := by
  rcases hallowed with ⟨bytes, hbytes, hmark⟩ | ⟨earlier, hearlier, hmark⟩
  · have hmem : bytes ∈ site.hashed world stage.written :=
      List.mem_append_left _ (Option.mem_toList.mpr hbytes)
    have htext := hdigest bytes hmem hmark.symm
    exact absurd (htext ▸ hbytes) hlock
  · have hmem : (site.fingerprintText earlier).toUTF8 ∈ site.hashed world stage.written :=
      List.mem_append_right _ (List.mem_map_of_mem hearlier)
    have htext := hdigest _ hmem hmark.symm
    exact ⟨earlier, hearlier, fingerprint_eq_of_fingerprintText (String.toByteArray_inj.mp htext)⟩

/-- **When a skipped run is sound.** After any history of registrations, resets and runs, by any
number of actions, that starts where nobody worked for the site yet: if a run is skipped, the index
is the one of the ledger that was written last, and it records the fingerprint of the present ledger
exactly if that one had the same. If digests tell the texts of the history apart, the present
fingerprint is at least one of those that were written; only a lock file that holds the identifying
text itself could pretend otherwise. -/
theorem skipped_sound_iff (hready : site.Ready world) (ledger : Ledger)
    {events : List Occurrence} (hrun : site.run (site.start ledger world) events = some stage)
    (hdigest : site.Distinguished world stage)
    {i : Nat} (hskip : site.attempt stage i = (.ok none, stage')) :
    ∃ latest older bytes, stage.written = latest :: older ∧
      stage'.world.tree.readBytes stage'.world.cwd site.indexPath = .ok bytes ∧
      bytes = Artifact.indexContent site.space latest ∧
      (Artifact.Records site.space bytes stage.ledger.fingerprint
        ↔ latest.fingerprint = stage.ledger.fingerprint) ∧
      (site.lockContent? world ≠ some (site.fingerprintText stage.ledger).toUTF8 →
        ∃ earlier ∈ stage.written, earlier.fingerprint = stage.ledger.fingerprint) := by
  have hup := upheld_run hready (upheld_start ledger hready) hrun
  obtain ⟨hallowed, latest, older, hwritten, hread⟩ := index_of_skipped hready hup hskip
  refine ⟨latest, older, _, hwritten, hread, rfl, Artifact.records_indexContent_iff, ?_⟩
  exact fun hlock => exists_written hdigest hlock hallowed

/-- Whether an outcome is the one of a skipped run. -/
def isSkipped : Except ArtifactError (Option Artifact.Report) → Bool
  | .ok none => true
  | _ => false

theorem eq_of_isSkipped {result : Except ArtifactError (Option Artifact.Report)}
    (h : isSkipped result = true) : result = .ok none := by
  unfold isSkipped at h
  split at h
  · rfl
  · exact absurd h (by simp)

/-- A site below the working directory. -/
def sample : Site := ⟨Artifact.app, ⟨"out"⟩, ⟨"cache.json"⟩, ⟨"lock"⟩⟩

/-- A machine with nothing but a lock file. -/
def sampleWorld : World where
  tree := FileTree.empty.insert ["lock"] (.file "x".toUTF8)
  cwd := []
  temporary := ⟨"tmp"⟩
  events := []

theorem ready_sample : sample.Ready sampleWorld := by
  have hfile : target sampleWorld.cwd sample.file = ["cache.json"] := by decide +kernel
  have hlock : target sampleWorld.cwd sample.lockFile = ["lock"] := by decide +kernel
  have hdirectory : target sampleWorld.cwd (Artifact.directory sample.space sample.output)
      = ["out", "App"] := by decide +kernel
  refine ⟨by decide +kernel, by decide +kernel, ?_, ?_, by decide +kernel⟩
  · rintro ⟨name, hname⟩
    rw [hfile, hdirectory] at hname
    exact absurd hname (by simp)
  · rintro ⟨name, hname⟩
    rw [hlock, hdirectory] at hname
    exact absurd hname (by simp)

/-- A second action skips what the first one has written, and is right. -/
theorem skipped_sound_sample :
    ∃ stage stage', sample.Ready sampleWorld ∧
      sample.run (sample.start (.new .enabled) sampleWorld)
        [.refresh 0] = some stage ∧
      sample.Distinguished sampleWorld stage ∧
      sample.attempt stage 1 = (.ok none, stage') ∧
      ∃ bytes, stage'.world.tree.readBytes stage'.world.cwd sample.indexPath = .ok bytes ∧
        Artifact.Records sample.space bytes stage.ledger.fingerprint := by
  have hcheck : ((sample.run (sample.start (.new .enabled) sampleWorld)
      [.refresh 0]).any fun stage =>
        isSkipped (sample.attempt stage 1).1 && decide (sample.Distinguished sampleWorld stage) &&
          stage.written.all fun ledger => ledger.log = stage.ledger.log) = true := by
    decide +kernel
  obtain ⟨stage, hrun, hstage⟩ := (Option.any_eq_true _ _).mp hcheck
  rw [Bool.and_eq_true, Bool.and_eq_true, decide_eq_true_iff] at hstage
  obtain ⟨⟨hskipped, hdigest⟩, hwritten⟩ := hstage
  have hskip : sample.attempt stage 1 = (.ok none, (sample.attempt stage 1).2) :=
    Prod.ext (eq_of_isSkipped hskipped) rfl
  obtain ⟨latest, older, bytes, hlatest, hread, -, hrecords, -⟩ :=
    skipped_sound_iff ready_sample (.new .enabled) hrun hdigest hskip
  have hmem : latest ∈ stage.written := hlatest ▸ List.mem_cons_self
  have hlog := of_decide_eq_true (List.all_eq_true.mp hwritten latest hmem)
  have hsame : latest.fingerprint = stage.ledger.fingerprint :=
    Ledger.fingerprint_congr hlog
  exact ⟨stage, _, ready_sample, hrun, hdigest, hskip, bytes, hread, hrecords.mpr hsame⟩

/-- The third run finds the marks of the first one and the index of the second one. -/
theorem skipped_unsound :
    ∃ stage stage', sample.Ready sampleWorld ∧
      sample.run (sample.start (.new .enabled) sampleWorld)
        [.refresh 0, .record "T" "one" {} .handler, .refresh 0, .reset] = some stage ∧
      sample.Distinguished sampleWorld stage ∧
      sample.attempt stage 0 = (.ok none, stage') ∧
      ∃ bytes, stage'.world.tree.readBytes stage'.world.cwd sample.indexPath = .ok bytes ∧
        ¬ Artifact.Records sample.space bytes stage.ledger.fingerprint := by
  have hcheck : ((sample.run (sample.start (.new .enabled) sampleWorld)
      [.refresh 0, .record "T" "one" {} .handler, .refresh 0, .reset]).any fun stage =>
        isSkipped (sample.attempt stage 0).1 && decide (sample.Distinguished sampleWorld stage) &&
          stage.written.head?.all fun ledger =>
            ledger.fingerprint ≠ stage.ledger.fingerprint) = true := by
    decide +kernel
  obtain ⟨stage, hrun, hstage⟩ := (Option.any_eq_true _ _).mp hcheck
  rw [Bool.and_eq_true, Bool.and_eq_true, decide_eq_true_iff] at hstage
  obtain ⟨⟨hskipped, hdigest⟩, hwritten⟩ := hstage
  have hskip : sample.attempt stage 0 = (.ok none, (sample.attempt stage 0).2) :=
    Prod.ext (eq_of_isSkipped hskipped) rfl
  have hup := upheld_run ready_sample (upheld_start (.new .enabled) ready_sample) hrun
  obtain ⟨-, latest, older, hlatest, hread⟩ := index_of_skipped ready_sample hup hskip
  rw [hlatest] at hwritten
  refine ⟨stage, _, ready_sample, hrun, hdigest, hskip, _, hread, ?_⟩
  rw [Artifact.records_indexContent_iff]
  exact of_decide_eq_true hwritten

/-! ## 6. Ledgers that only grow -/

/-- Each ledger was added to until it became the one in front of it. -/
def Grown (ledgers : List Ledger) : Prop :=
  ledgers.Pairwise fun later ledger => ledger.log <+: later.log

/-- Without a reset the present ledger is the one written last, with additions. -/
theorem grown_step {event : Occurrence} (hevent : event ≠ .reset)
    (h : Grown (stage.ledger :: stage.written)) (hstep : site.step stage event = some stage') :
    Grown (stage'.ledger :: stage'.written) := by
  obtain ⟨hpresent, hwritten⟩ := List.pairwise_cons.mp h
  cases event with
  | record destination name signature source =>
    obtain rfl := Option.some.inj hstep
    refine List.pairwise_cons.mpr ⟨fun g hg => (hpresent g hg).trans ?_, hwritten⟩
    exact Ledger.log_record_grows _ _ _ _ _
  | reset => exact absurd rfl hevent
  | refresh i =>
    rw [step] at hstep
    split at hstep
    · next result next hrun =>
      obtain rfl := Option.some.inj hstep
      obtain ⟨_, _, _, -, ⟨-, -, -, _, rfl⟩ | ⟨_, _, -, -, rfl⟩⟩ := attempt_cases hrun
      · exact h
      · refine List.pairwise_cons.mpr ⟨fun g hg => ?_, h⟩
        rcases List.mem_cons.mp hg with rfl | hg
        · exact List.prefix_refl _
        · exact hpresent g hg
    · exact absurd hstep (by simp)

theorem grown_run {events : List Occurrence} (hreset : .reset ∉ events)
    (h : Grown (stage.ledger :: stage.written)) (hrun : site.run stage events = some stage') :
    Grown (stage'.ledger :: stage'.written) := by
  induction events generalizing stage with
  | nil =>
    obtain rfl := Option.some.inj hrun
    exact h
  | cons event rest ih =>
    obtain ⟨hevent, hrest⟩ := not_or.mp (mt List.mem_cons.mpr hreset)
    rw [run, List.foldlM_cons] at hrun
    obtain ⟨next, hstep, htail⟩ := Option.bind_eq_some_iff.mp hrun
    exact ih hrest (grown_step (Ne.symm hevent) h hstep) htail

/-- **Without a reset every skipped run is sound.** A ledger that is only added to never returns to a
text that it had, so the ledger that was written with the present fingerprint is the present one, and
so is the one that was written last. -/
theorem index_of_skipped_of_no_reset (hready : site.Ready world) (ledger : Ledger)
    {events : List Occurrence} (hreset : .reset ∉ events)
    (hrun : site.run (site.start ledger world) events = some stage)
    (hdigest : site.Distinguished world stage)
    (hledgers : ∀ g ∈ stage.written, g.fingerprint = stage.ledger.fingerprint →
      g.fingerprintText = stage.ledger.fingerprintText)
    (hlock : site.lockContent? world ≠ some (site.fingerprintText stage.ledger).toUTF8)
    {i : Nat} (hskip : site.attempt stage i = (.ok none, stage')) :
    stage'.world.tree.readBytes stage'.world.cwd site.indexPath
      = .ok (Artifact.indexContent site.space stage.ledger) := by
  have hup := upheld_run hready (upheld_start ledger hready) hrun
  obtain ⟨hallowed, latest, older, hwritten, hread⟩ := index_of_skipped hready hup hskip
  obtain ⟨earlier, hearlier, hsame⟩ := exists_written hdigest hlock hallowed
  have hstart : Grown ((site.start ledger world).ledger :: (site.start ledger world).written) :=
    List.pairwise_singleton _ _
  have hgrown : Grown (stage.ledger :: stage.written) :=
    grown_run hreset hstart hrun
  obtain ⟨hpresent, horder⟩ := List.pairwise_cons.mp hgrown
  have hlog : earlier.log = stage.ledger.log :=
    Ledger.log_eq_of_fingerprintText_eq (hpresent earlier hearlier) (hledgers earlier hearlier hsame)
  have hlatest : latest ∈ stage.written := hwritten ▸ List.mem_cons_self
  have hbetween : earlier.log <+: latest.log := by
    rw [hwritten] at hearlier horder
    rcases List.mem_cons.mp hearlier with rfl | holder
    · exact List.prefix_refl _
    · exact (List.pairwise_cons.mp horder).1 earlier holder
  -- The earlier ledger, the latest and the present one are each a start of the next.
  have hlast : latest.log = stage.ledger.log := by
    refine (hpresent latest hlatest).eq_of_length_le ?_
    rw [← hlog]
    exact hbetween.length_le
  rw [hread]
  obtain ⟨mode, log⟩ := latest
  obtain rfl : log = stage.ledger.log := hlast
  rfl

end Site

end Graft
