/-
Machines with orderly files.

A machine may fail in any way and at any time: a disk is full, a name is taken, a permission is
missing. What the proofs about such machines rest on is what its files do all the same. The files are
told by the state of the machine as a tree. Looking at them does not change them; no operation takes a
directory away; a regular file only comes up where one was written with success. A directory that can
be reached can be listed, and a file that can be reached can be deleted.

The machine that is a pure value is orderly: `World.orderly`.
-/
import Graft.Proofs.Reaching
import Graft.Proofs.Running

set_option autoImplicit false

namespace Graft

open FileTree (Location target KeepsDirectories)

/-- The files of a machine and its working directory, as its state tells them. -/
structure Files (σ : Type) where
  tree : σ → FileTree
  cwd : σ → Location

namespace Files

variable {σ : Type} {files : Files σ} {s s' s'' : σ} {places places' : Location → Prop}

/-! ## 1. What may happen to files -/

/-- Nothing happened to the files. -/
structure Same (files : Files σ) (s s' : σ) : Prop where
  tree : files.tree s' = files.tree s
  cwd : files.cwd s' = files.cwd s

/-- Regular files came up at some places at most, and every directory is still there. Contents may
have changed, and files may be gone. -/
structure Steady (files : Files σ) (places : Location → Prop) (s s' : σ) : Prop where
  cwd : files.cwd s' = files.cwd s
  directories : KeepsDirectories (files.tree s) (files.tree s')
  free : ∀ location, ¬ places location → (files.tree s).content? location = none →
    (files.tree s').content? location = none

theorem Steady.refl (places : Location → Prop) (s : σ) : files.Steady places s s :=
  ⟨rfl, .refl _, fun _ _ h => h⟩

theorem Steady.trans (h : files.Steady places s s') (h' : files.Steady places s' s'') :
    files.Steady places s s'' where
  cwd := h'.cwd.trans h.cwd
  directories := h.directories.trans h'.directories
  free location hplace hfree := h'.free location hplace (h.free location hplace hfree)

theorem Steady.mono (h : files.Steady places s s')
    (hplaces : ∀ location, places location → places' location) : files.Steady places' s s' where
  cwd := h.cwd
  directories := h.directories
  free location hplace := h.free location fun hin => hplace (hplaces location hin)

theorem Same.steady (h : files.Same s s') : files.Steady places s s' where
  cwd := h.cwd
  directories := by
    rw [h.tree]
    exact .refl _
  free _ _ hfree := by rwa [h.tree]

/-! ## 2. The laws -/

/-- What is assumed of a machine. Every operation may fail for reasons of its own; only two may not:
listing a directory that is there, and deleting a regular file that is there. -/
structure Orderly [Host (StateM σ)] (files : Files σ) : Prop where
  readBytes : ∀ path s, files.Same s ((Host.readBytes path : StateM σ _).run s).2
  isFile : ∀ path s, files.Same s ((Host.isFile path : StateM σ _).run s).2
  list : ∀ path s, files.Same s ((Host.list path : StateM σ _).run s).2
  log : ∀ event s, files.Same s ((Host.log event : StateM σ _).run s).2
  /-- The machine knows what a regular file is. -/
  isFile_eq : ∀ path s, ((Host.isFile path : StateM σ _).run s).1
    = (files.tree s).isFile (files.cwd s) path
  /-- A directory that is there is listed with all that is in it. -/
  listed : ∀ path s names, (files.tree s).list (files.cwd s) path = .ok names →
    ∃ found, ((Host.list path : StateM σ _).run s).1 = .ok found ∧ ∀ name ∈ names, name ∈ found
  createDirectories : ∀ path s,
    files.Steady (fun _ => False) s ((Host.createDirectories path : StateM σ _).run s).2
  /-- A write that fails leaves no new file. -/
  writeFile : ∀ path content s, files.Steady (fun location =>
      ((Host.writeFile path content : StateM σ _).run s).1 = .ok () ∧
        location = target (files.cwd s) path) s
    ((Host.writeFile path content : StateM σ _).run s).2
  replaceFile : ∀ path content s, files.Steady (fun location =>
      ((Host.replaceFile path content : StateM σ _).run s).1 = .ok () ∧
        location = target (files.cwd s) path) s
    ((Host.replaceFile path content : StateM σ _).run s).2
  removeFile : ∀ path s,
    files.Steady (fun _ => False) s ((Host.removeFile path : StateM σ _).run s).2
  /-- A regular file that is there can be deleted. -/
  removed : ∀ path s, (files.tree s).isFile (files.cwd s) path = true →
    ((Host.removeFile path : StateM σ _).run s).1 = .ok () ∧
      (files.tree ((Host.removeFile path : StateM σ _).run s).2).content?
        (target (files.cwd s) path) = none

end Files

/-! ## 3. The machine that is a value -/

namespace World

variable {w w' : World} {path : Path} {content : ByteArray}

/-- The files of a machine that is a value. -/
def files : Files World := ⟨World.tree, World.cwd⟩

theorem run_change_of_ok {f : FileTree → Except FileError FileTree} {tree : FileTree}
    (h : f w.tree = .ok tree) : (change f).run w = (.ok (), { w with tree := tree }) := by
  show change f w = _
  rw [change, h]

/-- A change of the tree is as steady as the function is that makes it. -/
theorem steady_of_change {f : FileTree → Except FileError FileTree}
    (places : Except FileError Unit → Location → Prop)
    (h : ∀ tree, f w.tree = .ok tree → KeepsDirectories w.tree tree ∧
      ∀ location, ¬ places (.ok ()) location →
        w.tree.content? location = none → tree.content? location = none) :
    files.Steady (places ((change f).run w).1) w ((change f).run w).2 := by
  cases hf : f w.tree with
  | error error =>
    have hrun : (change f).run w = (.error error, w) := by
      show change f w = _
      rw [change, hf]
    rw [hrun]
    exact .refl _ _
  | ok tree =>
    obtain ⟨hdirectories, hfree⟩ := h tree hf
    rw [run_change_of_ok hf]
    exact ⟨rfl, hdirectories, hfree⟩

/-- A write puts a content where it succeeds, and nowhere else. -/
theorem free_of_write {tree : FileTree}
    (hcontent : ∀ other, tree.content? other
      = if other = target w.cwd path then some content else w.tree.content? other)
    {location : Location} (hother : ¬ (Except.ok () = (.ok () : Except FileError Unit) ∧
      location = target w.cwd path))
    (hfree : w.tree.content? location = none) : tree.content? location = none := by
  rw [hcontent, if_neg fun heq => hother ⟨rfl, heq⟩]
  exact hfree

theorem orderly : files.Orderly where
  readBytes _ _ := ⟨rfl, rfl⟩
  isFile _ _ := ⟨rfl, rfl⟩
  list _ _ := ⟨rfl, rfl⟩
  log _ _ := ⟨rfl, rfl⟩
  isFile_eq _ _ := rfl
  listed _ _ names h := ⟨names, h, fun _ hname => hname⟩
  createDirectories path w := by
    -- This is no change that happens as a whole or not at all: it may fail halfway.
    rcases hrun : (Host.createDirectories path : StateM World _).run w with ⟨result, w'⟩
    have hmade : { w with tree := (w.tree.createDirectories w.cwd path).2 } = w' :=
      congrArg Prod.snd hrun
    subst hmade
    refine ⟨rfl, FileTree.keepsDirectories_createDirectories _ _ _, fun location _ hfree => ?_⟩
    show (w.tree.createDirectories w.cwd path).2.content? location = none
    rw [FileTree.content?_createDirectories]
    exact hfree
  writeFile path content w := by
    rw [run_writeFile]
    apply steady_of_change fun result location => result = .ok () ∧ location = target w.cwd path
    intro tree htree
    refine ⟨FileTree.keepsDirectories_writeFile htree, fun location hplace => ?_⟩
    exact free_of_write (FileTree.content?_writeFile htree) hplace
  replaceFile path content w := by
    rw [run_replaceFile]
    apply steady_of_change fun result location => result = .ok () ∧ location = target w.cwd path
    intro tree htree
    refine ⟨FileTree.keepsDirectories_writeFile
      (FileTree.writeFile_of_replaceFile htree), fun location hplace => ?_⟩
    exact free_of_write (FileTree.content?_replaceFile htree) hplace
  removeFile path w := by
    rw [run_removeFile]
    apply steady_of_change fun _ _ => False
    intro tree htree
    refine ⟨FileTree.keepsDirectories_removeFile htree, fun location _ hfree => ?_⟩
    rw [FileTree.content?_removeFile htree]
    split
    · rfl
    · exact hfree
  removed path w h := by
    rw [run_removeFile, run_change_of_ok (FileTree.removeFile_of_isFile h)]
    refine ⟨rfl, ?_⟩
    show (w.tree.erase (target w.cwd path)).content? (target w.cwd path) = none
    rw [FileTree.content?_erase, if_pos rfl]

end World

end Graft
