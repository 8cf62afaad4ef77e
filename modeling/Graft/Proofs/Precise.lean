/-
Machines whose operations on files go no further than their paths.

An operation may fail at any time, and one that fails may leave its work half done. What it leaves is
still where its path leads: a write or a removal touches one regular file, a new file takes nobody's
place, and directories are only made on the way to a path. Looking at files does not change them. All
this is so on trees of directories and regular files, without links.
`Files.Bounded` says in which places a machine has done something, and `Files.Precise` states the laws
with it. Programs that keep to these operations are described by the places they name.

The machine that is a pure value is precise: `World.precise`.
-/
import Graft.Proofs.Growing
import Graft.Proofs.Orderly

set_option autoImplicit false

namespace Graft

open FileTree (Location target KeepsDirectories)

/-- The places of a path and of the paths above it. -/
def FileTree.OnTheWay (cwd : Location) (path : Path) (location : Location) : Prop :=
  ∃ above ∈ path.ancestors, location = target cwd above

namespace Files

variable {σ : Type} {files : Files σ} {s s' s'' : σ} {path : Path} {content : ByteArray}
variable {places places' made made' : Location → Prop}

/-! ## 1. Where something happened -/

/-- Regular files came up, went away or changed at some places only, and directories were made at
others only. No directory is gone. -/
structure Bounded (files : Files σ) (places made : Location → Prop) (s s' : σ) : Prop where
  cwd : files.cwd s' = files.cwd s
  content? : ∀ location, ¬ places location →
    (files.tree s').content? location = (files.tree s).content? location
  directories : KeepsDirectories (files.tree s) (files.tree s')
  made : ∀ location, (files.tree s').get? location = some .directory →
    (files.tree s).get? location = some .directory ∨ made location

theorem Bounded.refl (places made : Location → Prop) (s : σ) : files.Bounded places made s s :=
  ⟨rfl, fun _ _ => rfl, .refl _, fun _ => .inl⟩

theorem Bounded.trans (h : files.Bounded places made s s')
    (h' : files.Bounded places made s' s'') : files.Bounded places made s s'' where
  cwd := h'.cwd.trans h.cwd
  content? location hout := (h'.content? location hout).trans (h.content? location hout)
  directories := h.directories.trans h'.directories
  made location hdirectory := (h'.made location hdirectory).elim (h.made location) .inr

theorem Bounded.mono (h : files.Bounded places made s s')
    (hplaces : ∀ location, places location → places' location)
    (hmade : ∀ location, made location → made' location) : files.Bounded places' made' s s' where
  cwd := h.cwd
  content? location hout := h.content? location fun hin => hout (hplaces location hin)
  directories := h.directories
  made location hdirectory := (h.made location hdirectory).imp_right (hmade location)

theorem Same.bounded (h : files.Same s s') : files.Bounded places made s s' where
  cwd := h.cwd
  content? _ _ := by rw [h.tree]
  directories := by
    rw [h.tree]
    exact .refl _
  made _ hdirectory := .inl (by rwa [h.tree] at hdirectory)

/-- What can be read elsewhere is still read there. -/
theorem Bounded.readBytes (h : files.Bounded places made s s')
    (hout : ¬ places (target (files.cwd s) path))
    (hread : (files.tree s).readBytes (files.cwd s) path = .ok content) :
    (files.tree s').readBytes (files.cwd s') path = .ok content := by
  obtain ⟨hlocate, hcontent⟩ := FileTree.readBytes_eq_ok_iff.mp hread
  rw [h.cwd]
  refine FileTree.readBytes_eq_ok_iff.mpr ⟨h.directories.locate hlocate, ?_⟩
  rw [h.content? _ hout, hcontent]

/-- The same for a machine whose working directory is known, which can be put together from step to
step when the places depend on it. -/
def BoundedFrom (files : Files σ) (cwd : Location) (places made : Location → Prop) (s s' : σ) :
    Prop :=
  files.cwd s = cwd → files.Bounded places made s s'

theorem composable_boundedFrom {cwd : Location} :
    Composable (files.BoundedFrom cwd places made) where
  refl s _ := .refl _ _ s
  trans h h' hcwd := (h hcwd).trans (h' ((h hcwd).cwd.trans hcwd))

/-! ## 2. The laws -/

/-- What is assumed of a machine. Every operation may fail, for whatever reason.

These are laws of trees of directories and regular files. Where an entry is a symbolic link, or a file
has a second name by a hard link, a write or a removal shows at places to which its path does not lead,
and nothing is said of such machines. -/
structure Precise [Host (StateM σ)] (files : Files σ) : Prop where
  readBytes : ∀ path s, files.Same s ((Host.readBytes path : StateM σ _).run s).2
  present : ∀ path s, files.Same s ((Host.present path : StateM σ _).run s).2
  isFile : ∀ path s, files.Same s ((Host.isFile path : StateM σ _).run s).2
  list : ∀ path s, files.Same s ((Host.list path : StateM σ _).run s).2
  log : ∀ event s, files.Same s ((Host.log event : StateM σ _).run s).2
  /-- Only what stands in a directory is listed. -/
  listed : ∀ path s names, ((Host.list path : StateM σ _).run s).1 = .ok names → ∀ name ∈ names,
    (files.tree s).get? (target (files.cwd s) path ++ [name]) ≠ none
  createDirectories : ∀ path s,
    files.Bounded (fun _ => False) (FileTree.OnTheWay (files.cwd s) path) s
      ((Host.createDirectories path : StateM σ _).run s).2
  /-- A new file is made where its path leads, -/
  createFile : ∀ path content s,
    files.Bounded (· = target (files.cwd s) path) (fun _ => False) s
      ((Host.createFile path content : StateM σ _).run s).2
  /-- and it takes nobody's place. -/
  created : ∀ path content s location found,
    (files.tree s).content? location = some found →
      (files.tree ((Host.createFile path content : StateM σ _).run s).2).content? location
        = some found
  writeFile : ∀ path content s,
    files.Bounded (· = target (files.cwd s) path) (fun _ => False) s
      ((Host.writeFile path content : StateM σ _).run s).2
  replaceFile : ∀ path content s,
    files.Bounded (· = target (files.cwd s) path) (fun _ => False) s
      ((Host.replaceFile path content : StateM σ _).run s).2
  removeFile : ∀ path s,
    files.Bounded (· = target (files.cwd s) path) (fun _ => False) s
      ((Host.removeFile path : StateM σ _).run s).2

end Files

/-! ## 3. The machine that is a value -/

namespace FileTree

variable {tree tree' : FileTree} {cwd location other : Location} {path : Path} {content : ByteArray}

/-- Where a file is put no directory comes up. -/
theorem directory_of_insert_file
    (h : (tree.insert location (.file content)).get? other = some .directory) :
    tree.get? other = some .directory := by
  rw [get?_insert] at h
  split at h
  · next hroot => rw [hroot, get?_nil]
  · split at h
    · exact absurd (Option.some.inj h) (by simp)
    · exact h

theorem directory_of_erase (h : (tree.erase location).get? other = some .directory) :
    tree.get? other = some .directory := by
  rw [get?_erase] at h
  split at h
  · next hroot => rw [hroot, get?_nil]
  · split at h
    · exact absurd h (by simp)
    · exact h

/-- All directories that come up are on the way, also when making them fails halfway. -/
theorem directory_of_createDirectories
    (h : (tree.createDirectories cwd path).2.get? location = some .directory) :
    tree.get? location = some .directory ∨ OnTheWay cwd path location := by
  have hR : Composable fun tree tree' : FileTree => tree'.get? location = some .directory →
      tree.get? location = some .directory ∨ OnTheWay cwd path location :=
    ⟨fun _ => .inl, fun h h' hend => (h' hend).elim h .inr⟩
  refine createDirectories_of_ancestors hR (fun {tree tree' above} hin hmake hthere => ?_) tree h
  obtain ⟨-, -, rfl, -⟩ := target_of_makeDirectory hmake
  rw [get?_insert] at hthere
  split at hthere
  · next hroot => exact .inl (by rw [hroot, get?_nil])
  · split at hthere
    · next heq => exact .inr ⟨above, hin, heq⟩
    · exact .inl hthere

end FileTree

namespace World

open FileTree (directory_of_insert_file directory_of_erase)

variable {w : World} {path : Path} {content : ByteArray}

/-- A change of the tree that fails does nothing. -/
theorem bounded_of_change {f : FileTree → Except FileError FileTree} {place : Location}
    (h : ∀ tree, f w.tree = .ok tree → KeepsDirectories w.tree tree ∧ ∀ location,
      (location ≠ place → tree.content? location = w.tree.content? location) ∧
        (tree.get? location = some .directory → w.tree.get? location = some .directory)) :
    files.Bounded (· = place) (fun _ => False) w ((change f).run w).2 := by
  rcases hrun : (change f).run w with ⟨result, w'⟩
  rcases change_cases hrun with ⟨error, -, rfl⟩ | ⟨tree, htree, -, rfl⟩
  · exact .refl _ _ _
  · obtain ⟨hdirectories, htree⟩ := h tree htree
    exact ⟨rfl, fun location => (htree location).1, hdirectories,
      fun location hthere => .inl ((htree location).2 hthere)⟩

/-- A content at the target of a path changes nothing elsewhere. -/
theorem bounded_of_insert_file {f : FileTree → Except FileError FileTree}
    (h : ∀ tree, f w.tree = .ok tree → w.tree.get? (target w.cwd path) ≠ some .directory ∧
      tree = w.tree.insert (target w.cwd path) (.file content)) :
    files.Bounded (· = target w.cwd path) (fun _ => False) w ((change f).run w).2 := by
  refine bounded_of_change fun tree htree => ?_
  obtain ⟨hfree, rfl⟩ := h tree htree
  refine ⟨FileTree.keepsDirectories_insert hfree, fun location => ⟨fun hout => ?_,
    directory_of_insert_file⟩⟩
  rw [FileTree.content?_insert_file hfree, if_neg hout]

/-- A new file takes nobody's place. -/
theorem content?_of_createFile {location : Location} {found : ByteArray}
    (h : (files.tree w).content? location = some found) :
    (files.tree ((Host.createFile path content : StateM World _).run w).2).content? location
      = some found := by
  have hfound : w.tree.content? location = some found := h
  rw [run_createFile]
  rcases hrun : (change fun tree => tree.createFile w.cwd path content).run w with ⟨result, w'⟩
  rcases change_cases hrun with ⟨error, -, rfl⟩ | ⟨tree, htree, -, rfl⟩
  · exact h
  · show tree.content? location = some found
    rw [FileTree.content?_createFile htree, if_neg, hfound]
    rintro rfl
    rw [FileTree.content?_eq_some_iff, (FileTree.createFile_eq_ok htree).1] at hfound
    exact absurd hfound (by simp)

theorem bounded_createDirectories (path : Path) (w : World) :
    files.Bounded (fun _ => False) (FileTree.OnTheWay w.cwd path) w
      ((Host.createDirectories path : StateM World _).run w).2 := by
  refine ⟨rfl, fun location _ => ?_, FileTree.keepsDirectories_createDirectories _ _ _,
    fun location => ?_⟩
  · show (w.tree.createDirectories w.cwd path).2.content? location = w.tree.content? location
    rw [FileTree.content?_createDirectories]
  · show (w.tree.createDirectories w.cwd path).2.get? location = some .directory → _
    exact FileTree.directory_of_createDirectories

theorem bounded_createFile (path : Path) (content : ByteArray) (w : World) :
    files.Bounded (· = target w.cwd path) (fun _ => False) w
      ((Host.createFile path content : StateM World _).run w).2 := by
  rw [run_createFile]
  have hinsert (tree : FileTree) (h : w.tree.createFile w.cwd path content = .ok tree) :
      w.tree.get? (target w.cwd path) ≠ some .directory ∧
        tree = w.tree.insert (target w.cwd path) (.file content) := by
    obtain ⟨hfree, htree⟩ := FileTree.createFile_eq_ok h
    exact ⟨by simp [hfree], htree⟩
  exact bounded_of_insert_file hinsert

theorem bounded_writeFile (path : Path) (content : ByteArray) (w : World) :
    files.Bounded (· = target w.cwd path) (fun _ => False) w
      ((Host.writeFile path content : StateM World _).run w).2 := by
  rw [run_writeFile]
  exact bounded_of_insert_file fun _ => FileTree.writeFile_eq_ok

theorem bounded_replaceFile (path : Path) (content : ByteArray) (w : World) :
    files.Bounded (· = target w.cwd path) (fun _ => False) w
      ((Host.replaceFile path content : StateM World _).run w).2 := by
  rw [run_replaceFile]
  exact bounded_of_insert_file fun _ htree =>
    FileTree.writeFile_eq_ok (FileTree.writeFile_of_replaceFile htree)

theorem bounded_removeFile (path : Path) (w : World) :
    files.Bounded (· = target w.cwd path) (fun _ => False) w
      ((Host.removeFile path : StateM World _).run w).2 := by
  rw [run_removeFile]
  refine bounded_of_change fun tree htree => ?_
  refine ⟨FileTree.keepsDirectories_removeFile htree, fun location => ⟨fun hout => ?_, ?_⟩⟩
  · rw [FileTree.content?_removeFile htree, if_neg hout]
  · obtain ⟨-, rfl⟩ := FileTree.removeFile_eq_ok htree
    exact directory_of_erase

theorem precise : files.Precise where
  readBytes _ _ := ⟨rfl, rfl⟩
  present _ _ := ⟨rfl, rfl⟩
  isFile _ _ := ⟨rfl, rfl⟩
  list _ _ := ⟨rfl, rfl⟩
  log _ _ := ⟨rfl, rfl⟩
  listed path w names hnames name hname := by
    have hlist : w.tree.list w.cwd path = .ok names := hnames
    exact FileTree.get?_of_mem_list hlist hname
  createDirectories := bounded_createDirectories
  createFile := bounded_createFile
  created _ _ _ _ _ := content?_of_createFile
  writeFile := bounded_writeFile
  replaceFile := bounded_replaceFile
  removeFile := bounded_removeFile

end World

end Graft
