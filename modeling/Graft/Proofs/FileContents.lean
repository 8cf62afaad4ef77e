/-
What file operations do to the contents of files.

A machine is seen here through one function, the content of the file at a location. A write changes
it at the target of its path and nowhere else, a removal takes one content away, and making
directories leaves it alone. Programs that only use these are described by the region in which they
may put contents; everything outside of it was there before.
-/
import Graft.Proofs.Location
import Graft.Proofs.Running
import Graft.World

set_option autoImplicit false

namespace Graft

namespace FileTree

/-! ## 1. Contents -/

/-- The content of the file at a location, if one is there. -/
def content? (tree : FileTree) (location : Location) : Option ByteArray :=
  match tree.get? location with
  | some (.file content) => some content
  | _ => none

variable {tree tree' : FileTree} {cwd location other : Location} {path : Path} {content : ByteArray}

theorem content?_eq_some_iff :
    tree.content? location = some content ↔ tree.get? location = some (.file content) := by
  unfold content?
  split
  · next h => rw [h]; simp
  · next h => exact ⟨fun hnone => absurd hnone (by simp), fun hfile => absurd hfile (h content)⟩

theorem get?_insert (tree : FileTree) (location : Location) (entry : Entry) (other : Location) :
    (tree.insert location entry).get? other
      = if other = [] then some .directory
        else if other = location then some entry else tree.get? other := by
  simp only [get?, insert, OrderedMap.get?_insert]
  split <;> rfl

theorem get?_erase (tree : FileTree) (location other : Location) :
    (tree.erase location).get? other
      = if other = [] then some .directory
        else if other = location then none else tree.get? other := by
  simp only [get?, erase, OrderedMap.get?_erase]
  split <;> rfl

theorem get?_nil (tree : FileTree) : tree.get? [] = some .directory := rfl

/-- A file that is put where no directory is becomes a content; all others stay. -/
theorem content?_insert_file (h : tree.get? location ≠ some .directory) (content : ByteArray)
    (other : Location) : (tree.insert location (.file content)).content? other
      = if other = location then some content else tree.content? other := by
  unfold content?
  rw [get?_insert]
  by_cases hroot : other = []
  · subst hroot
    -- The root is a directory, so the location is not the root.
    have hne : [] ≠ location := by
      rintro rfl
      exact h (get?_nil tree)
    rw [if_pos rfl, if_neg hne]
    rfl
  · rw [if_neg hroot]
    by_cases hother : other = location
    · rw [if_pos hother, if_pos hother]
    · rw [if_neg hother, if_neg hother]

theorem content?_insert_directory (tree : FileTree) (h : tree.get? location = none)
    (other : Location) :
    (tree.insert location .directory).content? other = tree.content? other := by
  unfold content?
  rw [get?_insert]
  by_cases hroot : other = []
  · subst hroot
    rfl
  · rw [if_neg hroot]
    by_cases hother : other = location
    · subst hother
      rw [if_pos rfl, h]
    · rw [if_neg hother]

theorem content?_erase (tree : FileTree) (location other : Location) :
    (tree.erase location).content? other
      = if other = location then none else tree.content? other := by
  unfold content?
  rw [get?_erase]
  by_cases hroot : other = []
  · subst hroot
    rw [if_pos rfl]
    by_cases hother : [] = location
    · rw [if_pos hother]
    · rw [if_neg hother]
      rfl
  · rw [if_neg hroot]
    by_cases hother : other = location
    · rw [if_pos hother, if_pos hother]
    · rw [if_neg hother, if_neg hother]

/-! ## 2. Operations on the tree -/

/-- Steps in sequence succeed one after the other. -/
theorem exists_of_bind_eq_ok {ε α β : Type} {x : Except ε α} {f : α → Except ε β} {b : β}
    (h : (x >>= f) = .ok b) : ∃ a, x = .ok a ∧ f a = .ok b := by
  cases x with
  | error e => exact absurd h (by simp [bind, Except.bind])
  | ok a => exact ⟨a, rfl, h⟩

theorem throw_ne_ok {ε α : Type} {error : ε} {a : α} : (throw error : Except ε α) ≠ .ok a := by
  simp [throw, throwThe, MonadExceptOf.throw]

/-- A file is only written where no directory is. -/
theorem writeFile_eq_ok (h : tree.writeFile cwd path content = .ok tree') :
    tree.get? (target cwd path) ≠ some .directory ∧
      tree' = tree.insert (target cwd path) (.file content) := by
  obtain ⟨found, hlocate, h⟩ := exists_of_bind_eq_ok h
  obtain rfl := eq_target_of_locate hlocate
  split at h
  · exact absurd h throw_ne_ok
  · next hfree => exact ⟨hfree, (Except.ok.inj h).symm⟩

/-- Staged content ends up where a plain write would put it. -/
theorem writeFile_of_replaceFile (h : tree.replaceFile cwd path content = .ok tree') :
    tree.writeFile cwd path content = .ok tree' := by
  obtain ⟨_, -, h⟩ := exists_of_bind_eq_ok h
  exact h

/-- A file is only made where nothing is. -/
theorem createFile_eq_ok (h : tree.createFile cwd path content = .ok tree') :
    tree.get? (target cwd path) = none ∧
      tree' = tree.insert (target cwd path) (.file content) := by
  obtain ⟨_, -, h⟩ := exists_of_bind_eq_ok h
  obtain ⟨found, hlocate, h⟩ := exists_of_bind_eq_ok h
  obtain rfl := eq_target_of_locate hlocate
  split at h
  · exact absurd h throw_ne_ok
  · next hfree => exact ⟨hfree, (Except.ok.inj h).symm⟩

theorem removeFile_eq_ok (h : tree.removeFile cwd path = .ok tree') :
    (∃ content, tree.get? (target cwd path) = some (.file content)) ∧
      tree' = tree.erase (target cwd path) := by
  obtain ⟨found, hlocate, h⟩ := exists_of_bind_eq_ok h
  obtain rfl := eq_target_of_locate hlocate
  split at h
  · next old hfile => exact ⟨⟨old, hfile⟩, (Except.ok.inj h).symm⟩
  · exact absurd h throw_ne_ok
  · exact absurd h throw_ne_ok

/-- A directory is only made where nothing is. -/
theorem makeDirectory_eq_ok (h : tree.makeDirectory cwd path = .ok tree') :
    ∃ location, tree.get? location = none ∧ tree' = tree.insert location .directory := by
  obtain ⟨found, -, h⟩ := exists_of_bind_eq_ok h
  split at h
  · exact absurd h throw_ne_ok
  · next hfree => exact ⟨found, hfree, (Except.ok.inj h).symm⟩

/-- Making a directory and those above it respects whatever making one of them respects, also when it
fails halfway. -/
theorem createDirectories_of_ancestors {R : FileTree → FileTree → Prop} (hR : Composable R)
    {path : Path} (h : ∀ {tree tree' : FileTree} {above}, above ∈ path.ancestors →
      tree.makeDirectory cwd above = .ok tree' → R tree tree')
    (tree : FileTree) : R tree (tree.createDirectories cwd path).2 := by
  -- The first path is tried, then all above it, then the first once more.
  have halong (paths : List Path) (hpaths : paths ⊆ path.ancestors) (tree : FileTree) :
      R tree (tree.createAlong cwd paths).2 := by
    induction paths generalizing tree with
    | nil => exact hR.refl tree
    | cons first above ih =>
      obtain ⟨hfirst, hrest⟩ := List.cons_subset.mp hpaths
      have habove := ih hrest tree
      unfold createAlong
      split
      · exact hR.refl tree
      · split
        · next hmake => exact h hfirst hmake
        · split
          · next hrec => rwa [hrec] at habove
          · next hrec =>
            rw [hrec] at habove
            split
            · next hmake => exact hR.trans habove (h hfirst hmake)
            · exact habove
        · exact hR.refl tree
  exact halong path.ancestors (List.Subset.refl _) tree

theorem createDirectories_of_makeDirectory {R : FileTree → FileTree → Prop} (hR : Composable R)
    (h : ∀ {tree tree' : FileTree} {path}, tree.makeDirectory cwd path = .ok tree' → R tree tree')
    (tree : FileTree) (path : Path) : R tree (tree.createDirectories cwd path).2 :=
  createDirectories_of_ancestors hR (fun _ => h) tree

/-- A write that succeeds puts its content at the target of its path. -/
theorem content?_writeFile (h : tree.writeFile cwd path content = .ok tree') (other : Location) :
    tree'.content? other
      = if other = target cwd path then some content else tree.content? other := by
  obtain ⟨hfree, rfl⟩ := writeFile_eq_ok h
  exact content?_insert_file hfree content other

theorem content?_replaceFile (h : tree.replaceFile cwd path content = .ok tree')
    (other : Location) : tree'.content? other
      = if other = target cwd path then some content else tree.content? other :=
  content?_writeFile (writeFile_of_replaceFile h) other

theorem content?_createFile (h : tree.createFile cwd path content = .ok tree')
    (other : Location) : tree'.content? other
      = if other = target cwd path then some content else tree.content? other := by
  obtain ⟨hfree, rfl⟩ := createFile_eq_ok h
  exact content?_insert_file (by simp [hfree]) content other

theorem content?_removeFile (h : tree.removeFile cwd path = .ok tree') (other : Location) :
    tree'.content? other = if other = target cwd path then none else tree.content? other := by
  obtain ⟨-, rfl⟩ := removeFile_eq_ok h
  exact content?_erase tree _ other

/-- Directories are only made where nothing is, so no file is touched, whatever fails. -/
theorem content?_createDirectories (tree : FileTree) (cwd : Location) (path : Path)
    (other : Location) :
    (tree.createDirectories cwd path).2.content? other = tree.content? other := by
  have hR : Composable fun tree tree' : FileTree => tree'.content? other = tree.content? other :=
    ⟨fun _ => rfl, fun h h' => h'.trans h⟩
  refine createDirectories_of_makeDirectory hR (fun hmake => ?_) tree path
  obtain ⟨location, hfree, rfl⟩ := makeDirectory_eq_ok hmake
  exact content?_insert_directory _ hfree other

theorem get?_of_lookup {entry : Entry} (h : tree.lookup cwd path = .ok entry) :
    tree.get? (target cwd path) = some entry := by
  obtain ⟨found, hlocate, h⟩ := exists_of_bind_eq_ok h
  obtain rfl := eq_target_of_locate hlocate
  split at h
  · next hget => rw [hget, Except.ok.inj h]
  · exact absurd h throw_ne_ok

/-- What is read from a path is the content at its target. -/
theorem content?_of_readBytes (h : tree.readBytes cwd path = .ok content) :
    tree.content? (target cwd path) = some content := by
  obtain ⟨entry, hlookup, h⟩ := exists_of_bind_eq_ok h
  rw [content?_eq_some_iff, get?_of_lookup hlookup]
  split at h
  · rw [Except.ok.inj h]
  · exact absurd h throw_ne_ok

/-- Where a regular file is, it can be read. -/
theorem readBytes_of_isFile (h : tree.isFile cwd path = true) :
    ∃ content, tree.readBytes cwd path = .ok content := by
  unfold isFile at h
  split at h
  · next content hlookup =>
    refine ⟨content, ?_⟩
    rw [readBytes, hlookup]
    rfl
  · exact absurd h (by simp)

end FileTree

/-! ## 3. Operations of a machine -/

namespace World

open FileTree (Location target)

variable {w w' w'' : World} {path : Path} {content : ByteArray} {region : Location → Prop}

/-- From one state of a machine to the next, contents were only put at locations of a region. Some
may also be gone. -/
structure Within (region : Location → Prop) (w w' : World) : Prop where
  cwd : w'.cwd = w.cwd
  kept : ∀ location content, w'.tree.content? location = some content →
    w.tree.content? location = some content ∨ region location

theorem Within.refl (region : Location → Prop) (w : World) : Within region w w :=
  ⟨rfl, fun _ _ h => .inl h⟩

theorem Within.trans (h : Within region w w') (h' : Within region w' w'') :
    Within region w w'' where
  cwd := h'.cwd.trans h.cwd
  kept location content hcontent :=
    (h'.kept location content hcontent).elim (h.kept location content) .inr

/-- Nothing outside of a region appears or changes. -/
theorem Within.content? (h : Within region w w') {location : Location} (hout : ¬ region location)
    (hcontent : w'.tree.content? location = some content) :
    w.tree.content? location = some content :=
  (h.kept location content hcontent).resolve_right hout

/-- What a change of the tree amounts to: it fails and nothing happens, or the tree is the changed
one. -/
theorem change_cases {f : FileTree → Except FileError FileTree} {result : Except FileError Unit}
    (h : (change f).run w = (result, w')) :
    (∃ error, result = .error error ∧ w' = w) ∨
      ∃ tree, f w.tree = .ok tree ∧ result = .ok () ∧ w' = { w with tree := tree } := by
  rcases hf : f w.tree with error | tree
  · have hrun : (change f).run w = (.error error, w) := by
      show change f w = _
      rw [change, hf]
    obtain ⟨rfl, rfl⟩ := Prod.mk.inj (hrun.symm.trans h)
    exact .inl ⟨error, rfl, rfl⟩
  · have hrun : (change f).run w = (.ok (), { w with tree := tree }) := by
      show change f w = _
      rw [change, hf]
    obtain ⟨rfl, rfl⟩ := Prod.mk.inj (hrun.symm.trans h)
    exact .inr ⟨tree, rfl, rfl, rfl⟩

theorem run_createDirectories (path : Path) (w : World) :
    (Host.createDirectories path : StateM World _).run w
      = ((w.tree.createDirectories w.cwd path).1,
          { w with tree := (w.tree.createDirectories w.cwd path).2 }) := rfl

theorem run_writeFile (path : Path) (content : ByteArray) (w : World) :
    (Host.writeFile path content : StateM World _).run w
      = (change (fun tree => tree.writeFile w.cwd path content)).run w := rfl

theorem run_createFile (path : Path) (content : ByteArray) (w : World) :
    (Host.createFile path content : StateM World _).run w
      = (change (fun tree => tree.createFile w.cwd path content)).run w := rfl

theorem run_replaceFile (path : Path) (content : ByteArray) (w : World) :
    (Host.replaceFile path content : StateM World _).run w
      = (change (fun tree => tree.replaceFile w.cwd path content)).run w := rfl

theorem run_removeFile (path : Path) (w : World) :
    (Host.removeFile path : StateM World _).run w
      = (change (fun tree => tree.removeFile w.cwd path)).run w := rfl

/-- A file was written: its content is there, and everything else is as before. -/
structure Wrote (path : Path) (content : ByteArray) (w w' : World) : Prop where
  cwd : w'.cwd = w.cwd
  content? : ∀ other, w'.tree.content? other
    = if other = target w.cwd path then some content else w.tree.content? other

theorem Wrote.within (h : Wrote path content w w') (hregion : region (target w.cwd path)) :
    Within region w w' where
  cwd := h.cwd
  kept location found hfound := by
    rw [h.content?] at hfound
    split at hfound
    · next heq => exact .inr (heq ▸ hregion)
    · exact .inl hfound

theorem Wrote.self (h : Wrote path content w w') :
    w'.tree.content? (target w.cwd path) = some content := by
  rw [h.content?, if_pos rfl]

theorem writeFile_cases {result : Except FileError Unit}
    (h : (Host.writeFile path content : StateM World _).run w = (result, w')) :
    (∃ error, result = .error error ∧ w' = w) ∨ (result = .ok () ∧ Wrote path content w w') := by
  rw [run_writeFile] at h
  rcases change_cases h with
    herror | ⟨tree, htree, rfl, rfl⟩
  · exact .inl herror
  · exact .inr ⟨rfl, rfl, FileTree.content?_writeFile htree⟩

theorem replaceFile_cases {result : Except FileError Unit}
    (h : (Host.replaceFile path content : StateM World _).run w = (result, w')) :
    (∃ error, result = .error error ∧ w' = w) ∨ (result = .ok () ∧ Wrote path content w w') := by
  rw [run_replaceFile] at h
  rcases change_cases h with
    herror | ⟨tree, htree, rfl, rfl⟩
  · exact .inl herror
  · exact .inr ⟨rfl, rfl, FileTree.content?_replaceFile htree⟩

/-- Where no content is put, everything is in any region. -/
theorem within_of_content?_eq (hcwd : w'.cwd = w.cwd)
    (h : ∀ other, w'.tree.content? other = w.tree.content? other) : Within region w w' :=
  ⟨hcwd, fun location _ hcontent => .inl ((h location).symm.trans hcontent)⟩

theorem within_removeFile {result : Except FileError Unit}
    (h : (Host.removeFile path : StateM World _).run w = (result, w')) : Within region w w' := by
  rw [run_removeFile] at h
  rcases change_cases h with
    ⟨error, -, rfl⟩ | ⟨tree, htree, -, rfl⟩
  · exact .refl region w'
  · refine ⟨rfl, fun location _ hcontent => ?_⟩
    rw [FileTree.content?_removeFile htree] at hcontent
    split at hcontent
    · exact absurd hcontent (by simp)
    · exact .inl hcontent

/-- Making directories leaves every content where it is, however it ends. -/
theorem same_contents_of_createDirectories {result : Except FileError Unit}
    (h : (Host.createDirectories path : StateM World _).run w = (result, w')) :
    w'.cwd = w.cwd ∧ ∀ other, w'.tree.content? other = w.tree.content? other := by
  have hworld : { w with tree := (w.tree.createDirectories w.cwd path).2 } = w' :=
    congrArg Prod.snd h
  subst hworld
  exact ⟨rfl, FileTree.content?_createDirectories w.tree w.cwd path⟩

theorem within_createDirectories {result : Except FileError Unit}
    (h : (Host.createDirectories path : StateM World _).run w = (result, w')) :
    Within region w w' := by
  obtain ⟨hcwd, hcontents⟩ := same_contents_of_createDirectories h
  exact within_of_content?_eq hcwd hcontents

theorem within_log {event : Event} {u : Unit}
    (h : (Host.log event : StateM World _).run w = (u, w')) : Within region w w' := by
  have hworld : { w with events := event :: w.events } = w' := congrArg Prod.snd h
  subst hworld
  exact within_of_content?_eq rfl fun _ => rfl

end World

end Graft
