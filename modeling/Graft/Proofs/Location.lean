/-
Where a path leads.

A path is followed one segment at a time and may fail at any of them, but if it does not fail it
leads to one place only: the names of its segments, counted from the working directory or from the
root. The tree decides whether a path is good and not where it leads. All that is proved about files
goes through this place, since it does not change when the tree does.
-/
import Graft.FileTree

set_option autoImplicit false

namespace Graft.FileTree

/-- Where a segment leads from a location. -/
def enter (location : Location) (segment : String) : Location :=
  if segment = "" ∨ segment = "." then location
  else if segment = ".." then location.dropLast
  else location ++ [segment]

/-- Where a path leads, whatever is there. -/
def target (cwd : Location) (path : Path) : Location :=
  path.segments.foldl enter (if path.isAbsolute then [] else cwd)

theorem eq_of_walk_eq_ok {tree : FileTree} {location found : Location} {segments : List String}
    (h : tree.walk location segments = .ok found) : found = segments.foldl enter location := by
  induction segments generalizing location with
  | nil => exact (Except.ok.inj h).symm
  | cons segment rest ih =>
    rw [walk] at h
    rw [List.foldl_cons, enter]
    split at h
    · exact absurd h (by simp)
    · exact absurd h (by simp)
    · split at h
      · next hstay => rw [if_pos hstay]; exact ih h
      · next hstay =>
        rw [if_neg hstay]
        split at h
        · next hup => rw [if_pos hup]; exact ih h
        · next hup =>
          rw [if_neg hup]
          -- The name may be too long; otherwise the walk goes on from the entry of that name.
          split at h
          · exact absurd h (by simp)
          · exact ih h

/-- A path that can be followed leads to its target. -/
theorem eq_target_of_locate {tree : FileTree} {cwd location : Location} {path : Path}
    (h : tree.locate cwd path = .ok location) : location = target cwd path := by
  unfold locate locateSegments at h
  split at h
  · exact absurd h (by simp)
  · split at h
    · exact absurd h (by simp)
    · split at h
      · exact absurd h (by simp)
      · exact eq_of_walk_eq_ok h

/-- A name that stands for an entry of a directory, and not for the directory itself, the one above
it or a longer path. -/
structure Simple (name : String) : Prop where
  slash : '/' ∉ name.toList
  ne_empty : name ≠ ""
  ne_dot : name ≠ "."
  ne_dots : name ≠ ".."

theorem enter_of_simple {name : String} (h : Simple name) (location : Location) :
    enter location name = location ++ [name] := by
  rw [enter, if_neg (not_or.mpr ⟨h.ne_empty, h.ne_dot⟩), if_neg h.ne_dots]

/-- A path that goes on behind a slash. -/
theorem segments_append (text more : String) :
    Path.segments ⟨text ++ "/" ++ more⟩ = Path.segments ⟨text⟩ ++ Path.segments ⟨more⟩ := by
  have hchars : (text ++ "/" ++ more).toList = text.toList ++ '/' :: more.toList := by simp
  rw [Path.segments, Path.segments, Path.segments, hchars, Text.splitAt_append_cons, List.map_append]

/-- A path without slashes is one segment. -/
theorem segments_of_slash_not_mem {name : String} (h : '/' ∉ name.toList) :
    Path.segments ⟨name⟩ = [name] := by
  rw [Path.segments, Text.splitAt_of_not_mem h, List.map_singleton, String.ofList_toList]

/-- A path that goes on with a name. -/
theorem segments_append_slash (text : String) {name : String} (h : '/' ∉ name.toList) :
    Path.segments ⟨text ++ "/" ++ name⟩ = Path.segments ⟨text⟩ ++ [name] := by
  rw [segments_append, segments_of_slash_not_mem h]

/-- What comes behind a path does not change where it starts. -/
theorem isAbsolute_append {text more : String} (h : text ≠ "") :
    Path.isAbsolute ⟨text ++ more⟩ = Path.isAbsolute ⟨text⟩ := by
  have hne : text.toList ≠ [] := fun hnil => h (String.toList_eq_nil_iff.mp hnil)
  obtain ⟨c, rest, hchars⟩ := List.exists_cons_of_ne_nil hne
  rw [Path.isAbsolute, Path.isAbsolute, String.toList_append, hchars]
  rfl

theorem isAbsolute_of_simple {name : String} (h : Simple name) : Path.isAbsolute ⟨name⟩ = false := by
  refine decide_eq_false fun hhead => h.slash ?_
  exact List.mem_of_head? hhead

/-- How paths are written that are seen from another one: the empty path adds nothing to them, a path
that ends in a slash is followed by them, and any other path by a slash and then by them. -/
theorem join_cases (base : Path) :
    (base.text = "" ∧ ∀ path : Path, path.isAbsolute = false → base.join path = path) ∨
      (∃ before, base = ⟨before ++ "/"⟩ ∧
        ∀ path : Path, path.isAbsolute = false → base.join path = ⟨before ++ "/" ++ path.text⟩) ∨
      (base.text ≠ "" ∧
        ∀ path : Path, path.isAbsolute = false → base.join path = ⟨base.text ++ "/" ++ path.text⟩) := by
  obtain ⟨text⟩ := base
  have hjoin (path : Path) (h : path.isAbsolute = false) : Path.join ⟨text⟩ path
      = if (text.isEmpty || text.toList.getLast? = some '/') = true then ⟨text ++ path.text⟩
        else ⟨text ++ "/" ++ path.text⟩ := by
    rw [Path.join, h, if_neg (by simp)]
  by_cases hopen : (text.isEmpty || text.toList.getLast? = some '/') = true
  · simp only [if_pos hopen] at hjoin
    rw [Bool.or_eq_true, decide_eq_true_iff, String.isEmpty_iff] at hopen
    rcases hopen with rfl | hslash
    · refine .inl ⟨rfl, fun path h => ?_⟩
      rw [hjoin path h, String.empty_append]
    · obtain ⟨before, hbefore⟩ := List.getLast?_eq_some_iff.mp hslash
      obtain rfl : text = String.ofList before ++ "/" := by
        rw [← String.toList_inj, hbefore]
        simp
      exact .inr (.inl ⟨_, rfl, hjoin⟩)
  · simp only [if_neg hopen] at hjoin
    refine .inr (.inr ⟨?_, hjoin⟩)
    rintro rfl
    exact hopen rfl

/-- How the path of an entry is written. -/
theorem entry_cases (directory : Path) {name : String} (h : Simple name) :
    (directory.text = "" ∧ directory.entry name = ⟨name⟩) ∨
      (∃ before, directory = ⟨before ++ "/"⟩ ∧ directory.entry name = ⟨before ++ "/" ++ name⟩) ∨
      (directory.text ≠ "" ∧ directory.entry name = ⟨directory.text ++ "/" ++ name⟩) := by
  have hrelative := isAbsolute_of_simple h
  rcases join_cases directory with ⟨hempty, hjoin⟩ | ⟨before, hbase, hjoin⟩ | ⟨hne, hjoin⟩
  · exact .inl ⟨hempty, hjoin _ hrelative⟩
  · exact .inr (.inl ⟨before, hbase, hjoin _ hrelative⟩)
  · exact .inr (.inr ⟨hne, hjoin _ hrelative⟩)

/-- A slash at the end adds an empty segment. -/
theorem segments_slash (text : String) : Path.segments ⟨text ++ "/"⟩ = Path.segments ⟨text⟩ ++ [""] := by
  rw [← String.append_empty (s := text ++ "/")]
  exact segments_append_slash text (by simp)

/-- A relative path goes on from where the path leads that it is seen from. -/
theorem target_join (cwd : Location) (base : Path) {path : Path} (h : path.isAbsolute = false) :
    target cwd (base.join path) = path.segments.foldl enter (target cwd base) := by
  rcases join_cases base with ⟨hempty, hjoin⟩ | ⟨before, rfl, hjoin⟩ | ⟨hne, hjoin⟩
  · -- An empty path leads to the working directory, and so does its only segment.
    obtain ⟨text⟩ := base
    obtain rfl : text = "" := hempty
    rw [hjoin _ h, target, h]
    rfl
  · -- The empty segment behind the slash stays where it is.
    rw [hjoin _ h, target, target, segments_append, isAbsolute_append (by simp), segments_slash,
      List.foldl_append, List.foldl_append]
    rfl
  · rw [hjoin _ h, target, target, segments_append, String.append_assoc, isAbsolute_append hne,
      List.foldl_append]

/-- An entry of a directory is below the directory, by its name. -/
theorem target_entry (cwd : Location) (directory : Path) {name : String} (h : Simple name) :
    target cwd (directory.entry name) = target cwd directory ++ [name] := by
  rw [Path.entry, target_join cwd directory (isAbsolute_of_simple h), segments_of_slash_not_mem h.slash]
  exact enter_of_simple h _

/-- An entry starts where its directory starts. -/
theorem isAbsolute_entry (directory : Path) {name : String} (h : Simple name) :
    (directory.entry name).isAbsolute = directory.isAbsolute := by
  rcases entry_cases directory h with ⟨hempty, hentry⟩ | ⟨before, rfl, hentry⟩ | ⟨hne, hentry⟩
  · obtain ⟨text⟩ := directory
    obtain rfl : text = "" := hempty
    rw [hentry, isAbsolute_of_simple h]
    rfl
  · rw [hentry, isAbsolute_append (by simp)]
  · rw [hentry, String.append_assoc, isAbsolute_append hne]

/-- Names lead down one after the other. -/
theorem target_foldl_entry (cwd : Location) (base : Path) {names : List String}
    (h : ∀ name ∈ names, Simple name) : target cwd (names.foldl Path.entry base)
      = target cwd base ++ names ∧ (names.foldl Path.entry base).isAbsolute = base.isAbsolute := by
  induction names generalizing base with
  | nil => exact ⟨(List.append_nil _).symm, rfl⟩
  | cons name rest ih =>
    obtain ⟨hname, hrest⟩ := List.forall_mem_cons.mp h
    obtain ⟨htarget, habsolute⟩ := ih (base.entry name) hrest
    rw [List.foldl_cons, htarget, habsolute, target_entry _ _ hname, isAbsolute_entry _ hname,
      List.append_assoc]
    exact ⟨rfl, rfl⟩

end Graft.FileTree
