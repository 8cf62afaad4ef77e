/-
What a generation writes.

After the directory was cleared and made, the sheets are written one after the other, and then the
index. No write takes anything away that another file of the directory holds: a file is only changed by
a write under its own name. So at the end every file holds what was last written under its name, and
the index, whose name no sheet has, holds what was written into it.
-/
import Graft.Proofs.Retrying

set_option autoImplicit false

namespace Graft

open FileTree (Location Simple KeepsDirectories target target_entry)

namespace World

variable {w w' w'' : World} {path : Path} {content : ByteArray} {region region' : Location → Prop}

/-! ## 1. What stays as it is -/

/-- From one state of a machine to the next, regular files were at most changed at locations of a
region, and directories nowhere. -/
structure Untouched (region : Location → Prop) (w w' : World) : Prop where
  cwd : w'.cwd = w.cwd
  directory : ∀ location,
    w'.tree.get? location = some .directory ↔ w.tree.get? location = some .directory
  content? : ∀ location, ¬ region location → w'.tree.content? location = w.tree.content? location

theorem Untouched.refl (region : Location → Prop) (w : World) : Untouched region w w :=
  ⟨rfl, fun _ => .rfl, fun _ _ => rfl⟩

theorem Untouched.trans (h : Untouched region w w') (h' : Untouched region w' w'') :
    Untouched region w w'' where
  cwd := h'.cwd.trans h.cwd
  directory location := (h'.directory location).trans (h.directory location)
  content? location hout := (h'.content? location hout).trans (h.content? location hout)

theorem Untouched.mono (h : Untouched region w w')
    (hregion : ∀ location, region location → region' location) : Untouched region' w w' where
  cwd := h.cwd
  directory := h.directory
  content? location hout := h.content? location fun hin => hout (hregion location hin)

theorem Untouched.keepsDirectories (h : Untouched region w w') : KeepsDirectories w.tree w'.tree :=
  fun location => (h.directory location).mpr

/-- What could be read outside of the region can still be read. -/
theorem Untouched.readBytes (h : Untouched region w w') (hout : ¬ region (target w.cwd path))
    (hread : w.tree.readBytes w.cwd path = .ok content) :
    w'.tree.readBytes w'.cwd path = .ok content := by
  obtain ⟨hlocate, hcontent⟩ := FileTree.readBytes_eq_ok_iff.mp hread
  rw [h.cwd]
  refine FileTree.readBytes_eq_ok_iff.mpr ⟨h.keepsDirectories.locate hlocate, ?_⟩
  rw [h.content? _ hout, hcontent]

theorem Untouched.of_same (htree : w'.tree = w.tree) (hcwd : w'.cwd = w.cwd) :
    Untouched region w w' := by
  refine ⟨hcwd, fun location => ?_, fun location _ => ?_⟩
  · rw [htree]
  · rw [htree]

/-- Reporting an event changes nothing but the log. -/
theorem same_of_log {ε : Type} {event : Event} {result : Except ε Unit}
    (h : (ExceptT.lift (Host.log event) : ExceptT ε (StateM World) Unit).run.run w = (result, w')) :
    w'.tree = w.tree ∧ w'.cwd = w.cwd := by
  obtain ⟨-, rfl⟩ := Prod.mk.inj h
  exact ⟨rfl, rfl⟩

/-- A write that succeeds changes one file, which can be read afterwards. -/
theorem untouched_writeFile
    (h : (Host.writeFile path content : StateM World _).run w = (.ok (), w')) :
    Untouched (fun location => location = target w.cwd path) w w' ∧
      w'.tree.readBytes w'.cwd path = .ok content := by
  rw [run_writeFile] at h
  rcases change_cases h with ⟨error, herror, -⟩ | ⟨tree, htree, -, rfl⟩
  · exact absurd herror (by simp)
  · have hwritten := FileTree.content?_writeFile htree
    refine ⟨⟨rfl, fun location => ?_, fun location hout => ?_⟩,
      FileTree.readBytes_of_writeFile htree⟩
    · constructor
      · intro hdirectory
        obtain ⟨hfree, rfl⟩ := FileTree.writeFile_eq_ok htree
        rw [FileTree.get?_insert] at hdirectory
        split at hdirectory
        · next hroot => rw [hroot, FileTree.get?_nil]
        · split at hdirectory
          · exact absurd hdirectory (by simp)
          · exact hdirectory
      · exact FileTree.keepsDirectories_writeFile htree location
    · rw [hwritten, if_neg hout]

end World

/-! ## 2. Sheets and index -/

namespace Artifact

open World (Untouched same_of_log untouched_writeFile)

variable {space : Namespace} {directory output : Path} {ledger : Ledger} {report : Report}
variable {w w' : World}

/-- The locations of some entries of a directory. -/
def Entries (cwd : Location) (directory : Path) (names : List String) (location : Location) : Prop :=
  ∃ name ∈ names, location = target cwd directory ++ [name]

theorem not_entries {cwd : Location} {names : List String} {name : String} (hname : Simple name)
    (h : name ∉ names) : ¬ Entries cwd directory names (target cwd (directory.entry name)) := by
  rintro ⟨other, hin, heq⟩
  rw [target_entry _ _ hname] at heq
  obtain rfl := List.singleton_inj.mp (List.append_cancel_left heq)
  exact h hin

theorem Entries.mono {cwd : Location} {names names' : List String} (h : names ⊆ names')
    {location : Location} (hin : Entries cwd directory names location) :
    Entries cwd directory names' location := by
  obtain ⟨name, hname, heq⟩ := hin
  exact ⟨name, h hname, heq⟩

/-- A write to an entry of a directory. -/
theorem entry_of_writeFile {name : String} {content : ByteArray} (hname : Simple name)
    (h : (Host.writeFile (directory.entry name) content : StateM World _).run w = (.ok (), w')) :
    Untouched (Entries w.cwd directory [name]) w w' ∧
      w'.tree.readBytes w'.cwd (directory.entry name) = .ok content := by
  obtain ⟨huntouched, hread⟩ := untouched_writeFile h
  refine ⟨huntouched.mono fun location heq => ⟨name, List.mem_singleton_self name, ?_⟩, hread⟩
  rw [← target_entry _ _ hname]
  exact heq

/-- After all sheets were written every file of a sheet holds the last sheet that goes to it. -/
theorem written_of_writeSheets {sheets : List Sheet}
    (hsimple : ∀ sheet ∈ sheets, Simple sheet.file)
    (h : (writeSheets space directory sheets : ExceptT ArtifactError (StateM World) Unit).run.run w
      = (.ok (), w')) :
    Untouched (Entries w.cwd directory (sheets.map Sheet.file)) w w' ∧
      ∀ sheet ∈ sheets, ∃ last ∈ sheets, last.file = sheet.file ∧
        w'.tree.readBytes w'.cwd (directory.entry sheet.file) = .ok (content (last.json space)) := by
  induction sheets generalizing w with
  | nil =>
    obtain ⟨-, rfl⟩ := Prod.mk.inj h
    exact ⟨.refl _ w, fun _ hin => absurd hin List.not_mem_nil⟩
  | cons sheet rest ih =>
    obtain ⟨hsheet, hrest⟩ := List.forall_mem_cons.mp hsimple
    obtain ⟨_, w₁, hwrite, h⟩ := run_bind_eq_ok h
    obtain ⟨_, w₂, hlog, h⟩ := run_bind_eq_ok h
    obtain ⟨hfirst, hread⟩ := entry_of_writeFile hsheet (run_mapError_eq_ok hwrite)
    obtain ⟨htree, hcwd⟩ := same_of_log hlog
    have hbefore := hfirst.trans (.of_same htree hcwd)
    obtain ⟨hothers, hwritten⟩ := ih hrest h
    rw [hbefore.cwd] at hothers
    refine ⟨?_, fun other hother => ?_⟩
    · refine (hbefore.mono fun _ => Entries.mono ?_).trans (hothers.mono fun _ => Entries.mono ?_)
      · exact List.cons_subset_cons _ (List.nil_subset _)
      · exact List.subset_cons_self _ _
    · -- A file that comes again holds what comes later; the others are not touched any more.
      by_cases hagain : other.file ∈ rest.map Sheet.file
      · obtain ⟨next, hnext, heq⟩ := List.mem_map.mp hagain
        obtain ⟨last, hlast, hfile, hcontent⟩ := hwritten next hnext
        rw [heq] at hfile hcontent
        exact ⟨last, List.mem_cons_of_mem _ hlast, hfile, hcontent⟩
      · rcases List.mem_cons.mp hother with rfl | hin
        · refine ⟨other, List.mem_cons_self, rfl, hothers.readBytes ?_ ?_⟩
          · rw [hbefore.cwd]
            exact not_entries hsheet hagain
          · rw [htree, hcwd]
            exact hread
        · exact absurd (List.mem_map_of_mem hin) hagain

/-- **What a generation that succeeds has written**: once the directory was cleared and made, the files
of the sheets and the index, each of which holds what it should. -/
theorem written_of_generate
    (h : (generate ledger space output : ExceptT ArtifactError (StateM World) Report).run.run w
      = (.ok report, w')) :
    ∃ w₁ w₂,
      (clear (Artifact.directory space output) :
        ExceptT ArtifactError (StateM World) Unit).run.run w = (.ok (), w₁) ∧
      (Host.createDirectories (Artifact.directory space output) : StateM World _).run w₁
        = (.ok (), w₂) ∧
      w₂.cwd = w.cwd ∧
      Untouched (Entries w.cwd (Artifact.directory space output)
        (indexFile :: (sheets ledger).map Sheet.file)) w₂ w' ∧
      (∀ sheet ∈ sheets ledger, ∃ last ∈ sheets ledger, last.file = sheet.file ∧
        w'.tree.readBytes w'.cwd ((Artifact.directory space output).entry sheet.file)
          = .ok (content (last.json space))) ∧
      w'.tree.readBytes w'.cwd (indexPath space output) = .ok (indexContent space ledger) ∧
      report = {
        directory := Artifact.directory space output
        files := (sheets ledger).map fun sheet => (Artifact.directory space output).entry sheet.file
        methods := (sheets ledger).foldr (fun sheet count => sheet.methods.length + count) 0
        fingerprint := ledger.fingerprint } := by
  have hsimple : ∀ sheet ∈ sheets ledger, Simple sheet.file := fun sheet => simple_file
  obtain ⟨_, w₁, hclear, h⟩ := run_bind_eq_ok h
  obtain ⟨_, w₂, hcreate, h⟩ := run_bind_eq_ok h
  obtain ⟨_, w₃, hsheets, h⟩ := run_bind_eq_ok h
  obtain ⟨_, w₄, hindex, h⟩ := run_bind_eq_ok h
  obtain ⟨_, w₅, hinfo, h⟩ := run_bind_eq_ok h
  obtain ⟨hreport, rfl⟩ := Prod.mk.inj h
  have hcreated := run_mapError_eq_ok hcreate
  have hcwd : w₂.cwd = w.cwd := by
    have hcleared : Confined w.cwd (Artifact.directory space output) w w₁ :=
      keeps_clear.of_run hclear
    exact (World.same_contents_of_createDirectories hcreated).1.trans (hcleared rfl).cwd
  obtain ⟨hwrote, hsheet⟩ := written_of_writeSheets hsimple hsheets
  obtain ⟨hwrote', hread⟩ := entry_of_writeFile simple_indexFile (run_mapError_eq_ok hindex)
  rw [hwrote.cwd] at hwrote'
  obtain ⟨htree, hcwd'⟩ := same_of_log hinfo
  refine ⟨w₁, w₂, hclear, hcreated, hcwd, ?_, fun sheet hin => ?_, ?_, (Except.ok.inj hreport).symm⟩
  · rw [← hcwd]
    refine ((hwrote.mono fun _ => Entries.mono ?_).trans
      (hwrote'.mono fun _ => Entries.mono ?_)).trans (.of_same htree hcwd')
    · exact List.subset_cons_self _ _
    · exact List.cons_subset_cons _ (List.nil_subset _)
  · -- The index has a name of its own, so writing it leaves the sheets as they are.
    obtain ⟨last, hlast, hfile, hcontent⟩ := hsheet sheet hin
    refine ⟨last, hlast, hfile, ?_⟩
    rw [htree, hcwd']
    refine hwrote'.readBytes ?_ hcontent
    rw [hwrote.cwd]
    refine not_entries (hsimple sheet hin) fun heq => ?_
    exact file_ne_indexFile hin (List.mem_singleton.mp heq)
  · rw [htree, hcwd']
    exact hread

end Artifact

end Graft
