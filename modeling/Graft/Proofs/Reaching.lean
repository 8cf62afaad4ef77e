/-
Which paths can be followed.

Where a path leads is told by its names alone, but whether it can be followed is told by the
directories that are there. A tree that has the directories of another follows every path that the
other follows. No operation on files takes a directory away, so what could be reached before an
operation can be reached after it.

A file that stands where a path leads may still be out of reach: somewhere on the way a directory can
be missing that the path goes into and comes out of again. What is in reach is found in the listing of
its directory.
-/
import Graft.Proofs.FileContents
import Mathlib.Data.List.Induction

set_option autoImplicit false

namespace Graft.FileTree

variable {tree tree' tree'' : FileTree} {cwd location found : Location} {path : Path}
variable {content : ByteArray}

/-! ## 1. Steps on the way -/

/-- A segment that leads somewhere from a directory: it names no entry, or one of allowed length. -/
def Passable (segment : String) : Prop :=
  (segment = "" ∨ segment = ".") ∨ segment = ".." ∨ segment.utf8ByteSize ≤ longestName

/-- A path is followed by one step from a directory and then from where the step leads. -/
theorem walk_cons_iff {segment : String} {rest : List String} :
    tree.walk location (segment :: rest) = .ok found ↔
      tree.get? location = some .directory ∧ Passable segment ∧
        tree.walk (enter location segment) rest = .ok found := by
  rw [walk, enter, Passable]
  cases hget : tree.get? location with
  | none => simp
  | some entry =>
    cases entry with
    | file content => simp
    | directory =>
      by_cases hstay : segment = "" ∨ segment = "."
      · simp [hstay]
      by_cases hup : segment = ".."
      · simp [hup]
      by_cases hlong : longestName < segment.utf8ByteSize
      · simp [hstay, hup, hlong, Nat.not_le.mpr hlong]
      · simp [hstay, hup, hlong, Nat.le_of_not_lt hlong]

theorem walk_append_iff {before after : List String} :
    tree.walk location (before ++ after) = .ok found ↔
      ∃ middle, tree.walk location before = .ok middle ∧ tree.walk middle after = .ok found := by
  induction before generalizing location with
  | nil =>
    constructor
    · intro h
      exact ⟨location, rfl, h⟩
    · rintro ⟨middle, hmiddle, h⟩
      obtain rfl := Except.ok.inj hmiddle
      exact h
  | cons segment rest ih =>
    rw [List.cons_append, walk_cons_iff, ih]
    constructor
    · rintro ⟨hdirectory, hpass, middle, hmiddle, h⟩
      exact ⟨middle, walk_cons_iff.mpr ⟨hdirectory, hpass, hmiddle⟩, h⟩
    · rintro ⟨middle, hmiddle, h⟩
      obtain ⟨hdirectory, hpass, hmiddle⟩ := walk_cons_iff.mp hmiddle
      exact ⟨hdirectory, hpass, middle, hmiddle, h⟩

/-- A text that the system takes for a path. -/
structure Acceptable (path : Path) : Prop where
  noNul : path.text.toList.any (fun c => c.toNat = 0) = false
  ne_empty : path.text ≠ ""
  short : path.text.utf8ByteSize ≤ longestPath

theorem locateSegments_iff {segments : List String} :
    tree.locateSegments cwd path segments = .ok found ↔
      Acceptable path ∧ tree.walk (if path.isAbsolute then [] else cwd) segments = .ok found := by
  unfold locateSegments
  constructor
  · intro h
    split at h
    · exact absurd h (by simp)
    · next hnul =>
      split at h
      · exact absurd h (by simp)
      · next hempty =>
        split at h
        · exact absurd h (by simp)
        · next hlong =>
          exact ⟨⟨by simpa using hnul, hempty, Nat.le_of_not_lt hlong⟩, h⟩
  · rintro ⟨⟨hnul, hempty, hshort⟩, h⟩
    rw [hnul, if_neg (by simp), if_neg hempty, if_neg (Nat.not_lt.mpr hshort)]
    exact h

theorem locate_iff : tree.locate cwd path = .ok found ↔
    Acceptable path ∧ tree.walk (if path.isAbsolute then [] else cwd) path.segments = .ok found :=
  locateSegments_iff

/-- Every directory of a tree is a directory of another one. -/
def KeepsDirectories (tree tree' : FileTree) : Prop :=
  ∀ location, tree.get? location = some .directory → tree'.get? location = some .directory

theorem KeepsDirectories.refl (tree : FileTree) : KeepsDirectories tree tree := fun _ h => h

theorem KeepsDirectories.trans (h : KeepsDirectories tree tree')
    (h' : KeepsDirectories tree' tree'') : KeepsDirectories tree tree'' :=
  fun location hlocation => h' location (h location hlocation)

/-- Every step of a walk starts in a directory, and that is still there. -/
theorem KeepsDirectories.walk (h : KeepsDirectories tree tree') {segments : List String}
    (hwalk : tree.walk location segments = .ok found) :
    tree'.walk location segments = .ok found := by
  induction segments generalizing location with
  | nil => exact hwalk
  | cons segment rest ih =>
    obtain ⟨hdirectory, hpass, hrest⟩ := walk_cons_iff.mp hwalk
    exact walk_cons_iff.mpr ⟨h location hdirectory, hpass, ih hrest⟩

/-- What can be followed can still be followed when there are more directories. -/
theorem KeepsDirectories.locate (h : KeepsDirectories tree tree')
    (hlocate : tree.locate cwd path = .ok found) : tree'.locate cwd path = .ok found := by
  obtain ⟨hpath, hwalk⟩ := locate_iff.mp hlocate
  exact locate_iff.mpr ⟨hpath, h.walk hwalk⟩

/-! ## 2. Files in reach -/

/-- A path reaches a regular file when it can be followed and a file is where it leads. -/
theorem isFile_iff : tree.isFile cwd path = true ↔
    tree.locate cwd path = .ok (target cwd path) ∧
      ∃ content, tree.content? (target cwd path) = some content := by
  constructor
  · intro h
    unfold isFile at h
    split at h
    · next content hlookup =>
      refine ⟨?_, content, content?_eq_some_iff.mpr (get?_of_lookup hlookup)⟩
      obtain ⟨found, hlocate, -⟩ := exists_of_bind_eq_ok hlookup
      rwa [← eq_target_of_locate hlocate]
    · exact absurd h (by simp)
  · rintro ⟨hlocate, content, hcontent⟩
    rw [content?_eq_some_iff] at hcontent
    simp only [isFile, lookup, hlocate, bind, Except.bind, hcontent]
    rfl

/-- A file that stands where a path leads is in reach of the path, if there is one. -/
def InReach (tree : FileTree) (cwd : Location) (path : Path) : Prop :=
  tree.content? (target cwd path) = none ∨ tree.isFile cwd path = true

/-- What was in reach stays in reach while directories stay and no file comes up there. -/
theorem InReach.mono (h : tree.InReach cwd path) (hdirectories : KeepsDirectories tree tree')
    (hnew : tree.content? (target cwd path) = none → tree'.content? (target cwd path) = none) :
    tree'.InReach cwd path := by
  rcases h with hnone | hfile
  · exact .inl (hnew hnone)
  · cases hcontent : tree'.content? (target cwd path) with
    | none => exact .inl hcontent
    | some content =>
      have hlocate := hdirectories.locate (isFile_iff.mp hfile).1
      exact .inr (isFile_iff.mpr ⟨hlocate, content, hcontent⟩)

theorem isFile_of_content?_eq_none (h : tree.content? (target cwd path) = none) :
    tree.isFile cwd path = false := by
  rw [← Bool.not_eq_true, isFile_iff]
  rintro ⟨-, content, hcontent⟩
  exact absurd (h.symm.trans hcontent) (by simp)

/-- What is read from a path is the content where the path leads, if the path can be followed. -/
theorem readBytes_eq_ok_iff : tree.readBytes cwd path = .ok content ↔
    tree.locate cwd path = .ok (target cwd path) ∧
      tree.content? (target cwd path) = some content := by
  constructor
  · intro h
    refine ⟨?_, content?_of_readBytes h⟩
    obtain ⟨entry, hlookup, -⟩ := exists_of_bind_eq_ok h
    obtain ⟨found, hlocate, -⟩ := exists_of_bind_eq_ok hlookup
    rwa [← eq_target_of_locate hlocate]
  · rintro ⟨hlocate, hcontent⟩
    rw [content?_eq_some_iff] at hcontent
    simp only [readBytes, lookup, hlocate, bind, Except.bind, hcontent]
    rfl

theorem isFile_of_readBytes (h : tree.readBytes cwd path = .ok content) :
    tree.isFile cwd path = true := by
  obtain ⟨hlocate, hcontent⟩ := readBytes_eq_ok_iff.mp h
  exact isFile_iff.mpr ⟨hlocate, content, hcontent⟩

theorem present_of_readBytes (h : tree.readBytes cwd path = .ok content) :
    tree.present cwd path = true := by
  obtain ⟨entry, hlookup, -⟩ := exists_of_bind_eq_ok h
  rw [present, hlookup]
  rfl

/-- Nothing is at a path that leads to a free place, whether it can be followed or not. -/
theorem present_of_get?_eq_none (h : tree.get? (target cwd path) = none) :
    tree.present cwd path = false := by
  unfold present lookup
  cases hlocate : tree.locate cwd path with
  | error error => rfl
  | ok found =>
    rw [eq_target_of_locate hlocate]
    simp only [bind, Except.bind, h]
    rfl

/-- Nothing can be read where nothing is. -/
theorem readBytes_of_get?_eq_none (hlocate : tree.locate cwd path = .ok location)
    (hnone : tree.get? location = none) : tree.readBytes cwd path = .error .notFound := by
  simp only [readBytes, lookup, hlocate, bind, Except.bind, hnone]
  rfl

/-! ## 3. What operations do to directories -/

theorem keepsDirectories_insert {entry : Entry} (h : tree.get? location ≠ some .directory) :
    KeepsDirectories tree (tree.insert location entry) := by
  intro other hother
  rw [get?_insert]
  split
  · rfl
  · rw [if_neg, hother]
    rintro rfl
    exact h hother

theorem keepsDirectories_writeFile (h : tree.writeFile cwd path content = .ok tree') :
    KeepsDirectories tree tree' := by
  obtain ⟨hfree, rfl⟩ := writeFile_eq_ok h
  exact keepsDirectories_insert hfree

theorem keepsDirectories_removeFile (h : tree.removeFile cwd path = .ok tree') :
    KeepsDirectories tree tree' := by
  obtain ⟨⟨content, hfile⟩, rfl⟩ := removeFile_eq_ok h
  intro other hother
  rw [get?_erase]
  split
  · rfl
  · rw [if_neg, hother]
    rintro rfl
    exact absurd (hfile.symm.trans hother) (by simp)

/-- Directories that were made before a failure stay, and so do all others. -/
theorem keepsDirectories_createDirectories (tree : FileTree) (cwd : Location) (path : Path) :
    KeepsDirectories tree (tree.createDirectories cwd path).2 := by
  refine createDirectories_of_makeDirectory ⟨.refl, .trans⟩ (fun hmake => ?_) tree path
  obtain ⟨location, hfree, rfl⟩ := makeDirectory_eq_ok hmake
  exact keepsDirectories_insert (by simp [hfree])

/-- A file is made only where its path can be followed, and where content can be staged for it. -/
theorem located_of_createFile (h : tree.createFile cwd path content = .ok tree') :
    (∃ staged, tree.stage cwd path = .ok staged) ∧
      tree.locate cwd path = .ok (target cwd path) := by
  obtain ⟨staged, hstage, h⟩ := exists_of_bind_eq_ok h
  obtain ⟨found, hlocate, -⟩ := exists_of_bind_eq_ok h
  refine ⟨⟨staged, hstage⟩, ?_⟩
  rwa [← eq_target_of_locate hlocate]

/-- Nothing else is asked for. -/
theorem createFile_of_located {staged : Location} (hstage : tree.stage cwd path = .ok staged)
    (hlocate : tree.locate cwd path = .ok (target cwd path))
    (hfree : tree.get? (target cwd path) = none) (content : ByteArray) :
    tree.createFile cwd path content = .ok (tree.insert (target cwd path) (.file content)) := by
  simp only [createFile, hstage, hlocate, bind, Except.bind, hfree]
  rfl

/-- A file in reach can be removed. -/
theorem removeFile_of_isFile (h : tree.isFile cwd path = true) :
    tree.removeFile cwd path = .ok (tree.erase (target cwd path)) := by
  obtain ⟨hlocate, content, hcontent⟩ := isFile_iff.mp h
  have hget := content?_eq_some_iff.mp hcontent
  simp only [removeFile, hlocate, bind, Except.bind, hget]
  rfl

/-- What was written can be read. -/
theorem readBytes_of_writeFile (h : tree.writeFile cwd path content = .ok tree') :
    tree'.readBytes cwd path = .ok content := by
  obtain ⟨found, hlocate, -⟩ := exists_of_bind_eq_ok h
  have htarget := eq_target_of_locate hlocate
  rw [htarget] at hlocate
  have hlocate' := (keepsDirectories_writeFile h).locate hlocate
  have hcontent : tree'.content? (target cwd path) = some content := by
    rw [content?_writeFile h, if_pos rfl]
  exact readBytes_eq_ok_iff.mpr ⟨hlocate', hcontent⟩

/-- What was removed cannot be read any more, and neither can what was not there to be removed. -/
theorem readBytes_of_removeFile (h : tree.removeFile cwd path = .ok tree') :
    tree'.readBytes cwd path = .error .notFound := by
  obtain ⟨found, hlocate, -⟩ := exists_of_bind_eq_ok h
  have htarget := eq_target_of_locate hlocate
  rw [htarget] at hlocate
  have hlocate' := (keepsDirectories_removeFile h).locate hlocate
  obtain ⟨⟨content, hfile⟩, rfl⟩ := removeFile_eq_ok h
  have hroot : target cwd path ≠ [] := by
    intro hnil
    rw [hnil, get?_nil] at hfile
    exact absurd hfile (by simp)
  refine readBytes_of_get?_eq_none hlocate' ?_
  rw [get?_erase, if_neg hroot, if_pos rfl]

theorem readBytes_of_removeFile_notFound (h : tree.removeFile cwd path = .error .notFound) :
    tree.readBytes cwd path = .error .notFound := by
  cases hlocate : tree.locate cwd path with
  | error error =>
    simp only [removeFile, hlocate, bind, Except.bind] at h
    simp only [readBytes, lookup, hlocate, bind, Except.bind]
    rw [Except.error.inj h]
  | ok location =>
    refine readBytes_of_get?_eq_none hlocate ?_
    simp only [removeFile, hlocate, bind, Except.bind] at h
    split at h
    · exact absurd h (by simp [pure, Except.pure])
    · exact absurd h (by simp [throw, throwThe, MonadExceptOf.throw])
    · next hnone => exact hnone

/-! ## 4. Listings -/

/-- The listing of a directory shows every entry that stands in it. -/
theorem mem_list {name : String} {entry : Entry} (hlocate : tree.locate cwd path = .ok location)
    (hdirectory : tree.get? location = some .directory)
    (hentry : tree.get? (location ++ [name]) = some entry) :
    ∃ names, tree.list cwd path = .ok names ∧ name ∈ names := by
  refine ⟨tree.entries.keys.filterMap (childName? location), ?_, ?_⟩
  · simp only [list, hlocate, bind, Except.bind, hdirectory]
    rfl
  · have hkey : location ++ [name] ∈ tree.entries.keys := by
      rw [get?, if_neg (by simp)] at hentry
      apply (OrderedMap.contains_iff_mem_keys _ _).mp
      rw [OrderedMap.contains, hentry]
      rfl
    refine List.mem_filterMap.mpr ⟨location ++ [name], hkey, ?_⟩
    rw [childName?, List.dropLast_concat, if_pos rfl, List.getLast?_concat]

/-- Every name that is listed is the name of something in the directory. -/
theorem get?_of_mem_list {name : String} {names : List String}
    (h : tree.list cwd path = .ok names) (hname : name ∈ names) :
    tree.get? (target cwd path ++ [name]) ≠ none := by
  obtain ⟨location, hlocate, h⟩ := exists_of_bind_eq_ok h
  obtain rfl := eq_target_of_locate hlocate
  split at h
  · obtain rfl := Except.ok.inj h
    obtain ⟨place, hkey, hchild⟩ := List.mem_filterMap.mp hname
    rw [childName?] at hchild
    split at hchild
    · next hparent =>
      obtain ⟨before, rfl⟩ := List.getLast?_eq_some_iff.mp hchild
      rw [List.dropLast_concat] at hparent
      have hthere := (OrderedMap.contains_iff_mem_keys _ _).mpr hkey
      rw [OrderedMap.contains, hparent] at hthere
      rw [get?, if_neg (by simp)]
      exact Option.isSome_iff_ne_none.mp hthere
    · exact absurd hchild (by simp)
  · exact absurd h throw_ne_ok
  · exact absurd h throw_ne_ok

/-- A directory through which an entry can be reached can be reached itself. -/
theorem locate_directory {directory : Path} {name : String} (hne : directory.text ≠ "")
    (hname : Simple name) (h : tree.locate cwd (directory.entry name) = .ok found) :
    ∃ location, tree.locate cwd directory = .ok location ∧
      tree.get? location = some .directory := by
  obtain ⟨hpath, hwalk⟩ := locate_iff.mp h
  -- The last segment is the name, and a name is only looked for in a directory.
  have hlast {before : List String} {start : Location}
      (hwalk : tree.walk start (before ++ [name]) = .ok found) :
      ∃ location, tree.walk start before = .ok location ∧
        tree.get? location = some .directory := by
    obtain ⟨location, hbefore, hname⟩ := walk_append_iff.mp hwalk
    exact ⟨location, hbefore, (walk_cons_iff.mp hname).1⟩
  have hprefix (rest : String) (htext : (directory.entry name).text = directory.text ++ rest) :
      Acceptable directory := by
    obtain ⟨hnul, -, hshort⟩ := hpath
    rw [htext] at hnul hshort
    rw [String.toList_append, List.any_append, Bool.or_eq_false_iff] at hnul
    rw [String.utf8ByteSize_append] at hshort
    exact ⟨hnul.1, hne, by omega⟩
  rcases entry_cases directory hname with ⟨hempty, -⟩ | ⟨before, rfl, hentry⟩ | ⟨-, hentry⟩
  · exact absurd hempty hne
  · -- The directory ends in a slash, which stays a step of its own that leads nowhere else.
    have hacceptable := hprefix name (by rw [hentry])
    rw [hentry, segments_append_slash _ hname.slash, isAbsolute_append (by simp)] at hwalk
    obtain ⟨location, hbefore, hdirectory⟩ := hlast hwalk
    refine ⟨location, locate_iff.mpr ⟨hacceptable, ?_⟩, hdirectory⟩
    rw [segments_slash, walk_append_iff]
    refine ⟨location, hbefore, walk_cons_iff.mpr ⟨hdirectory, .inl (.inl rfl), ?_⟩⟩
    rw [enter, if_pos (.inl rfl)]
    rfl
  · have hacceptable := hprefix ("/" ++ name) (by rw [hentry, String.append_assoc])
    rw [hentry, segments_append_slash _ hname.slash, String.append_assoc,
      isAbsolute_append hne] at hwalk
    obtain ⟨location, hbefore, hdirectory⟩ := hlast hwalk
    exact ⟨location, locate_iff.mpr ⟨hacceptable, hbefore⟩, hdirectory⟩

/-- A file in reach is found in the listing of its directory. -/
theorem mem_list_of_isFile {directory : Path} {name : String} (hne : directory.text ≠ "")
    (hname : Simple name) (h : tree.isFile cwd (directory.entry name) = true) :
    ∃ names, tree.list cwd directory = .ok names ∧ name ∈ names := by
  obtain ⟨hlocate, content, hcontent⟩ := isFile_iff.mp h
  obtain ⟨location, hfound, hdirectory⟩ := locate_directory hne hname hlocate
  obtain rfl := eq_target_of_locate hfound
  rw [target_entry _ _ hname] at hcontent
  exact mem_list hfound hdirectory (content?_eq_some_iff.mp hcontent)

/-! ## 5. Paths that only go down -/

/-- A tree in which everything stands in a directory, under a name that is not too long. -/
structure Rooted (tree : FileTree) : Prop where
  above : ∀ location name, tree.get? (location ++ [name]) ≠ none →
    tree.get? location = some .directory
  short : ∀ location name, tree.get? (location ++ [name]) ≠ none →
    name.utf8ByteSize ≤ longestName

/-- One more step down, to something that is there. -/
theorem walk_concat (hrooted : tree.Rooted) {segments : List String} {name : String}
    (hwalk : tree.walk location segments = .ok found) (hname : enter found name = found ++ [name])
    (hthere : tree.get? (found ++ [name]) ≠ none) :
    tree.walk location (segments ++ [name]) = .ok (found ++ [name]) := by
  refine walk_append_iff.mpr ⟨found, hwalk, walk_cons_iff.mpr ⟨?_, ?_, ?_⟩⟩
  · exact hrooted.above found name hthere
  · exact .inr (.inr (hrooted.short found name hthere))
  · rw [hname]
    rfl

theorem walk_of_directory (hrooted : tree.Rooted) {segments : List String}
    (hdown : ".." ∉ segments) (h : tree.get? (segments.foldl enter location) = some .directory) :
    tree.walk location segments = .ok (segments.foldl enter location) := by
  -- From the last segment on: what it leads to stands in what the others lead to.
  induction segments using List.reverseRecOn with
  | nil => rfl
  | append_singleton before segment ih =>
    rw [List.mem_append, not_or, List.mem_singleton] at hdown
    obtain ⟨hbefore, hsegment⟩ := hdown
    rw [List.foldl_append, List.foldl_cons, List.foldl_nil] at h ⊢
    by_cases hstay : segment = "" ∨ segment = "."
    · have henter : enter (before.foldl enter location) segment = before.foldl enter location := by
        rw [enter, if_pos hstay]
      rw [henter] at h ⊢
      refine walk_append_iff.mpr ⟨_, ih hbefore h, walk_cons_iff.mpr ⟨h, .inl hstay, ?_⟩⟩
      rw [henter]
      rfl
    · have henter : enter (before.foldl enter location) segment
          = before.foldl enter location ++ [segment] := by
        rw [enter, if_neg hstay, if_neg (Ne.symm hsegment)]
      rw [henter] at h ⊢
      have hthere : tree.get? (before.foldl enter location ++ [segment]) ≠ none := by simp [h]
      exact walk_concat hrooted (ih hbefore (hrooted.above _ _ hthere)) henter hthere

/-- The paths of all entries go through the same segments of the directory's path, and then to their
names. -/
theorem segments_entry (directory : Path) : ∃ before ⊆ directory.segments,
    ∀ name, Simple name → (directory.entry name).segments = before ++ [name] := by
  rcases join_cases directory with ⟨-, hjoin⟩ | ⟨before, rfl, hjoin⟩ | ⟨-, hjoin⟩
  · refine ⟨[], List.nil_subset _, fun name hname => ?_⟩
    rw [Path.entry, hjoin _ (isAbsolute_of_simple hname), segments_of_slash_not_mem hname.slash]
    rfl
  · refine ⟨Path.segments ⟨before⟩, ?_, fun name hname => ?_⟩
    · rw [segments_slash]
      exact List.subset_append_left _ _
    · rw [Path.entry, hjoin _ (isAbsolute_of_simple hname), segments_append_slash _ hname.slash]
  · refine ⟨_, List.Subset.refl _, fun name hname => ?_⟩
    rw [Path.entry, hjoin _ (isAbsolute_of_simple hname), segments_append_slash _ hname.slash]

/-- **A path that never goes back up reaches what is there.** Only a path that comes out of a
directory again can miss a file that stands where it leads. -/
theorem inReach_of_rooted (hrooted : tree.Rooted) {directory : Path} {name : String}
    (hname : Simple name) (hpath : Acceptable (directory.entry name))
    (hdown : ".." ∉ (directory.entry name).segments) : tree.InReach cwd (directory.entry name) := by
  cases hcontent : tree.content? (target cwd (directory.entry name)) with
  | none => exact .inl hcontent
  | some content =>
    -- The file stands in a directory, so the walk gets there, and the name is one step more.
    refine .inr (isFile_iff.mpr ⟨locate_iff.mpr ⟨hpath, ?_⟩, content, hcontent⟩)
    obtain ⟨before, -, hsegments⟩ := segments_entry directory
    rw [content?_eq_some_iff] at hcontent
    unfold target at hcontent ⊢
    rw [hsegments name hname] at hcontent hdown ⊢
    rw [List.foldl_append, List.foldl_cons, List.foldl_nil, enter_of_simple hname] at hcontent ⊢
    have hthere := hcontent ▸ Option.some_ne_none _
    have hbefore := walk_of_directory hrooted (fun hin => hdown (List.mem_append_left _ hin))
      (hrooted.above _ _ hthere)
    exact walk_concat hrooted hbefore (enter_of_simple hname _) hthere

end Graft.FileTree
