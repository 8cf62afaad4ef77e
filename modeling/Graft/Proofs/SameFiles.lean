/-
Trees that hold the same.

A tree keeps its entries in the order in which they came up, and that order is shown by a listing. All
else that is done with a tree looks at one location after the other. So trees that hold the same at every
location answer alike, and they hold the same again afterwards, even where making directories fails
halfway.

A request for an instance lists nothing. Hence machines with such trees are interchangeable for it:
`World.interchangeable_sameFiles`.
-/
import Graft.Proofs.FileContents
import Graft.Proofs.Twins

set_option autoImplicit false

namespace Graft

namespace FileTree

variable {tree tree' : FileTree} {cwd : Location} {path : Path} {content : ByteArray}

/-- Two trees hold the same, in whichever order it came up. -/
def SameEntries (tree tree' : FileTree) : Prop := ∀ location, tree'.get? location = tree.get? location

namespace SameEntries

/-! ## 1. What is looked at -/

theorem walk (h : SameEntries tree tree') (location : Location) (segments : List String) :
    tree'.walk location segments = tree.walk location segments := by
  induction segments generalizing location with
  | nil => rfl
  | cons segment rest ih =>
    rw [FileTree.walk, FileTree.walk, h location]
    simp only [ih]

theorem locateSegments (h : SameEntries tree tree') (cwd : Location) (path : Path)
    (segments : List String) :
    tree'.locateSegments cwd path segments = tree.locateSegments cwd path segments := by
  unfold FileTree.locateSegments
  rw [h.walk]

theorem locate (h : SameEntries tree tree') (cwd : Location) (path : Path) :
    tree'.locate cwd path = tree.locate cwd path := h.locateSegments cwd path path.segments

theorem lookup (h : SameEntries tree tree') (cwd : Location) (path : Path) :
    tree'.lookup cwd path = tree.lookup cwd path := by
  unfold FileTree.lookup
  simp only [h.locate, h _]

theorem present (h : SameEntries tree tree') (cwd : Location) (path : Path) :
    tree'.present cwd path = tree.present cwd path := by
  rw [FileTree.present, FileTree.present, h.lookup]

theorem readBytes (h : SameEntries tree tree') (cwd : Location) (path : Path) :
    tree'.readBytes cwd path = tree.readBytes cwd path := by
  rw [FileTree.readBytes, FileTree.readBytes, h.lookup]

theorem isDirectory (h : SameEntries tree tree') (cwd : Location) (path : Path) :
    tree'.isDirectory cwd path = tree.isDirectory cwd path := by
  rw [FileTree.isDirectory, FileTree.isDirectory, h.lookup]

/-! ## 2. What is changed -/

theorem insert (h : SameEntries tree tree') (location : Location) (entry : Entry) :
    SameEntries (tree.insert location entry) (tree'.insert location entry) := by
  intro other
  rw [get?_insert, get?_insert, h]

/-- Either no directory is made, for the same reason, or it is made in the same place. -/
theorem makeDirectory (h : SameEntries tree tree') (cwd : Location) (path : Path) :
    (∃ error, tree.makeDirectory cwd path = .error error ∧
        tree'.makeDirectory cwd path = .error error) ∨
      ∃ location, tree.makeDirectory cwd path = .ok (tree.insert location .directory) ∧
        tree'.makeDirectory cwd path = .ok (tree'.insert location .directory) := by
  unfold FileTree.makeDirectory
  dsimp only
  rw [h.locateSegments]
  cases tree.locateSegments cwd path (path.segments.reverse.dropWhile (· = "")).reverse with
  | error error => exact .inl ⟨error, rfl, rfl⟩
  | ok location =>
    simp only [bind, Except.bind, h location]
    cases tree.get? location with
    | some entry => exact .inl ⟨_, rfl, rfl⟩
    | none => exact .inr ⟨location, rfl, rfl⟩

/-- The same goes well or fails at the same point, and what was made up to there is the same. -/
theorem createAlong (h : SameEntries tree tree') (cwd : Location) (paths : List Path) :
    (tree'.createAlong cwd paths).1 = (tree.createAlong cwd paths).1 ∧
      SameEntries (tree.createAlong cwd paths).2 (tree'.createAlong cwd paths).2 := by
  induction paths generalizing tree tree' with
  | nil => exact ⟨rfl, h⟩
  | cons path above ih =>
    -- In the end the directory was made, or it is there already.
    have hlast {made made' : FileTree} (h : SameEntries made made') (error : FileError) :
        (if made'.isDirectory cwd path then Except.ok () else .error error)
          = if made.isDirectory cwd path then .ok () else .error error := by
      rw [h.isDirectory]
    unfold FileTree.createAlong
    by_cases hempty : path.text = ""
    · rw [if_pos hempty, if_pos hempty]
      exact ⟨rfl, h⟩
    rw [if_neg hempty, if_neg hempty]
    rcases h.makeDirectory cwd path with ⟨error, hmake, hmake'⟩ | ⟨location, hmake, hmake'⟩
    · rw [hmake, hmake']
      cases error with
      | notFound =>
        obtain ⟨hanswer, habove⟩ := ih h
        rcases hrun : tree.createAlong cwd above with ⟨result, made⟩
        rcases hrun' : tree'.createAlong cwd above with ⟨result', made'⟩
        rw [hrun, hrun'] at hanswer habove
        obtain rfl : result' = result := hanswer
        cases result' with
        | error error => exact ⟨rfl, habove⟩
        | ok =>
          rcases habove.makeDirectory cwd path with
            ⟨error, hmake, hmake'⟩ | ⟨location, hmake, hmake'⟩
          · simp only [hmake, hmake']
            exact ⟨hlast habove error, habove⟩
          · simp only [hmake, hmake', true_and]
            exact habove.insert location .directory
      | _ => exact ⟨hlast h _, h⟩
    · rw [hmake, hmake']
      exact ⟨rfl, h.insert location .directory⟩

/-- Either no file is made, for the same reason, or it is made in the same place. -/
theorem createFile (h : SameEntries tree tree') (cwd : Location) (path : Path)
    (content : ByteArray) :
    (∃ error, tree.createFile cwd path content = .error error ∧
        tree'.createFile cwd path content = .error error) ∨
      ∃ location, tree.createFile cwd path content = .ok (tree.insert location (.file content)) ∧
        tree'.createFile cwd path content = .ok (tree'.insert location (.file content)) := by
  unfold FileTree.createFile FileTree.stage
  rw [h.locate, h.locate]
  cases tree.locate cwd ((cwd.path.join path.directory).entry temporaryName) with
  | error error => exact .inl ⟨error, rfl, rfl⟩
  | ok staged =>
    cases tree.locate cwd path with
    | error error => exact .inl ⟨error, rfl, rfl⟩
    | ok location =>
      simp only [bind, Except.bind, h location]
      cases tree.get? location with
      | some entry => exact .inl ⟨_, rfl, rfl⟩
      | none => exact .inr ⟨location, rfl, rfl⟩

end SameEntries

end FileTree

/-! ## 3. Machines -/

namespace World

/-- Two machines work in the same directory, and hold the same. -/
structure SameFiles (w w' : World) : Prop where
  cwd : w'.cwd = w.cwd
  entries : w.tree.SameEntries w'.tree

variable {path : Path} {content : ByteArray}

theorem blind_createDirectories (path : Path) :
    Blind SameFiles (Host.createDirectories path : StateM World _) := by
  intro w w' h
  obtain ⟨hanswer, hmade⟩ := h.entries.createAlong w.cwd path.ancestors
  rw [run_createDirectories, run_createDirectories, h.cwd]
  exact ⟨hanswer, rfl, hmade⟩

/-- A change of the tree cannot tell such machines apart if what is made of the trees holds the same. -/
theorem blind_change_of_sameEntries {f : FileTree → Except FileError FileTree}
    (hf : ∀ {tree tree' : FileTree}, tree.SameEntries tree' →
      (∃ error, f tree = .error error ∧ f tree' = .error error) ∨
        ∃ made made', f tree = .ok made ∧ f tree' = .ok made' ∧ made.SameEntries made') :
    Blind SameFiles (change f) := by
  intro w w' h
  show (change f w').1 = (change f w).1 ∧ SameFiles (change f w).2 (change f w').2
  unfold change
  rcases hf h.entries with ⟨error, hmake, hmake'⟩ | ⟨made, made', hmake, hmake', hsame⟩
  · rw [hmake, hmake']
    exact ⟨rfl, h⟩
  · rw [hmake, hmake']
    exact ⟨rfl, h.cwd, hsame⟩

theorem blind_createFile (path : Path) (content : ByteArray) :
    Blind SameFiles (Host.createFile path content : StateM World _) := by
  intro w w' h
  rw [run_createFile, run_createFile, h.cwd]
  refine blind_change_of_sameEntries (fun hsame => ?_) h
  rcases hsame.createFile w.cwd path content with herror | ⟨location, hmake, hmake'⟩
  · exact .inl herror
  · exact .inr ⟨_, _, hmake, hmake', hsame.insert location _⟩

/-- **Whether machines hold the same is all that matters to a request** for an instance. -/
theorem interchangeable_sameFiles : Interchangeable SameFiles where
  present path w w' h := by
    refine ⟨?_, h⟩
    show w'.tree.present w'.cwd path = w.tree.present w.cwd path
    rw [h.cwd, h.entries.present]
  readBytes path w w' h := by
    refine ⟨?_, h⟩
    show w'.tree.readBytes w'.cwd path = w.tree.readBytes w.cwd path
    rw [h.cwd, h.entries.readBytes]
  createDirectories := blind_createDirectories
  createFile := blind_createFile
  log _ _ _ h := ⟨rfl, h.cwd, h.entries⟩

end World

end Graft
