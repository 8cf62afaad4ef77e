/-
How a tree of files grows.

A walk along a path ends at something that is there, or at a free place in a directory under a name of
its own. So whatever an operation puts into a tree stands in a directory, and a tree in which everything
does stays one.
-/
import Graft.Proofs.Reaching
import Mathlib.Data.List.TakeWhile

set_option autoImplicit false

namespace Graft

/-- No part between separators holds the separator. -/
theorem Text.not_mem_of_mem_splitAt {separator : Char} {cs part : List Char}
    (h : part ∈ Text.splitAt separator cs) : separator ∉ part := by
  induction cs generalizing part with
  | nil =>
    obtain rfl := List.mem_singleton.mp h
    exact List.not_mem_nil
  | cons c cs ih =>
    rw [Text.splitAt] at h
    split at h
    · rcases List.mem_cons.mp h with rfl | hin
      · exact List.not_mem_nil
      · exact ih hin
    · next hc =>
      obtain ⟨first, rest, hsplit⟩ := List.exists_cons_of_ne_nil (Text.splitAt_ne_nil separator cs)
      rw [hsplit] at h ih
      rcases List.mem_cons.mp h with rfl | hin
      · rintro (_ | ⟨_, hin⟩)
        · exact hc rfl
        · exact ih List.mem_cons_self hin
      · exact ih (List.mem_cons_of_mem _ hin)

/-- The first of the paths above a path is the path itself. -/
theorem Path.ancestors_eq_cons (path : Path) : ∃ above, path.ancestors = path :: above := by
  unfold ancestors
  cases path.segments.length with
  | zero => exact ⟨[], rfl⟩
  | succ n =>
    rw [ancestors.go]
    cases path.parent? with
    | none => exact ⟨[], rfl⟩
    | some parent => exact ⟨ancestors.go n parent, rfl⟩

namespace FileTree

variable {tree tree' tree'' : FileTree} {cwd location found : Location} {path : Path}
variable {content : ByteArray}

theorem slash_not_mem_of_mem_segments {segment : String} (h : segment ∈ path.segments) :
    '/' ∉ segment.toList := by
  obtain ⟨part, hpart, rfl⟩ := List.mem_map.mp h
  rw [String.toList_ofList]
  exact Text.not_mem_of_mem_splitAt hpart

theorem segments_ne_nil (path : Path) : path.segments ≠ [] := by
  rw [Path.segments, Ne, List.map_eq_nil_iff]
  exact Text.splitAt_ne_nil _ _

/-! ## 1. Where a walk ends -/

/-- A place in a directory, under a name that an entry may have. -/
def Site (tree : FileTree) (location : Location) : Prop :=
  ∃ parent name, location = parent ++ [name] ∧ tree.get? parent = some .directory ∧
    Simple name ∧ name.utf8ByteSize ≤ longestName

/-- The walk stays among what is there, except for its last step. -/
theorem site_of_walk (hrooted : tree.Rooted) {segments : List String}
    (hslash : ∀ segment ∈ segments, '/' ∉ segment.toList)
    (hstart : tree.get? location ≠ none ∨ tree.Site location)
    (h : tree.walk location segments = .ok found) :
    tree.get? found ≠ none ∨ tree.Site found := by
  induction segments generalizing location with
  | nil => rwa [← Except.ok.inj h]
  | cons segment rest ih =>
    obtain ⟨hdirectory, hpass, hrest⟩ := walk_cons_iff.mp h
    obtain ⟨hsegment, hslash⟩ := List.forall_mem_cons.mp hslash
    have hthere : tree.get? location ≠ none := by simp [hdirectory]
    refine ih hslash ?_ hrest
    by_cases hstay : segment = "" ∨ segment = "."
    · rw [enter, if_pos hstay]
      exact .inl hthere
    · rw [not_or] at hstay
      by_cases hup : segment = ".."
      · rw [enter, if_neg (not_or.mpr hstay), if_pos hup]
        -- Above the root there is the root, and above anything else its directory.
        cases location using List.reverseRecOn with
        | nil => exact .inl hthere
        | append_singleton parent name =>
          rw [List.dropLast_concat, hrooted.above parent name hthere]
          exact .inl (by simp)
      · have hsimple : Simple segment := ⟨hsegment, hstay.1, hstay.2, hup⟩
        rw [enter_of_simple hsimple]
        refine .inr ⟨location, segment, rfl, hdirectory, hsimple, ?_⟩
        rcases hpass with hfiller | hup' | hshort
        · exact absurd hfiller (not_or.mpr hstay)
        · exact absurd hup' hup
        · exact hshort

/-- A path that starts nowhere has no segments left to follow. -/
theorem site_of_locateSegments (hrooted : tree.Rooted) {segments : List String}
    (hslash : ∀ segment ∈ segments, '/' ∉ segment.toList)
    (hne : path.isAbsolute = true ∨ segments ≠ [])
    (h : tree.locateSegments cwd path segments = .ok found) :
    tree.get? found ≠ none ∨ tree.Site found := by
  obtain ⟨-, hwalk⟩ := locateSegments_iff.mp h
  refine site_of_walk hrooted hslash (.inl ?_) hwalk
  rcases hne with habsolute | hne
  · rw [if_pos habsolute, get?_nil]
    simp
  · obtain ⟨first, rest, rfl⟩ := List.exists_cons_of_ne_nil hne
    simp [(walk_cons_iff.mp hwalk).1]

theorem site_of_locate (hrooted : tree.Rooted) (h : tree.locate cwd path = .ok found) :
    tree.get? found ≠ none ∨ tree.Site found :=
  site_of_locateSegments hrooted (fun _ => slash_not_mem_of_mem_segments)
    (.inr (segments_ne_nil path)) h

/-- A file is written over another one, or at a free place in a directory. -/
theorem site_of_writeFile (hrooted : tree.Rooted)
    (h : tree.writeFile cwd path content = .ok tree') :
    tree.get? (target cwd path) ≠ some .directory ∧
      (tree.get? (target cwd path) ≠ none ∨ tree.Site (target cwd path)) ∧
      tree' = tree.insert (target cwd path) (.file content) := by
  obtain ⟨found, hlocate, -⟩ := exists_of_bind_eq_ok h
  have hsite := site_of_locate hrooted hlocate
  rw [eq_target_of_locate hlocate] at hsite
  obtain ⟨hfree, htree⟩ := writeFile_eq_ok h
  exact ⟨hfree, hsite, htree⟩

/-! ## 2. Where directories are made -/

/-- Slashes at the end lead nowhere. -/
theorem foldl_enter_dropSlashes (segments : List String) (location : Location) :
    ((segments.reverse.dropWhile (· = "")).reverse).foldl enter location
      = segments.foldl enter location := by
  induction segments using List.reverseRecOn with
  | nil => rfl
  | append_singleton before last ih =>
    rw [List.reverse_append, List.reverse_singleton, List.singleton_append, List.dropWhile_cons]
    split
    · next hlast =>
      rw [ih, List.foldl_append, of_decide_eq_true hlast]
      rfl
    · rw [List.reverse_cons, List.reverse_reverse]

/-- A relative path does not consist of slashes only. -/
theorem dropSlashes_ne_nil (hne : path.text ≠ "") (hrelative : path.isAbsolute = false) :
    (path.segments.reverse.dropWhile (· = "")).reverse ≠ [] := by
  rw [Ne, List.reverse_eq_nil_iff, List.dropWhile_eq_nil_iff]
  intro hall
  obtain ⟨c, rest, hchars⟩ := List.exists_cons_of_ne_nil fun h => hne (String.toList_eq_nil_iff.mp h)
  have hc : c ≠ '/' := by
    rintro rfl
    rw [Path.isAbsolute, hchars] at hrelative
    exact absurd hrelative (by simp)
  -- The first segment begins like the path.
  obtain ⟨first, others, hsplit⟩ := List.exists_cons_of_ne_nil (Text.splitAt_ne_nil '/' rest)
  have hsegment : String.ofList (c :: first) ∈ path.segments := by
    rw [Path.segments, hchars, Text.splitAt, if_neg hc, hsplit]
    exact List.mem_map_of_mem List.mem_cons_self
  have hempty := of_decide_eq_true (hall _ (List.mem_reverse.mpr hsegment))
  have hlist := congrArg String.toList hempty
  rw [String.toList_ofList] at hlist
  exact absurd hlist (by simp)

/-- A directory is made where its path leads, at a free place. -/
theorem target_of_makeDirectory (h : tree.makeDirectory cwd path = .ok tree') :
    path.text ≠ "" ∧ tree.get? (target cwd path) = none ∧
      tree' = tree.insert (target cwd path) .directory ∧
      tree.locateSegments cwd path (path.segments.reverse.dropWhile (· = "")).reverse
        = .ok (target cwd path) := by
  obtain ⟨location, hlocate, h⟩ := exists_of_bind_eq_ok h
  obtain ⟨hacceptable, hwalk⟩ := locateSegments_iff.mp hlocate
  obtain rfl : location = target cwd path := by
    rw [eq_of_walk_eq_ok hwalk, foldl_enter_dropSlashes]
    rfl
  split at h
  · exact absurd h throw_ne_ok
  · next hfree => exact ⟨hacceptable.ne_empty, hfree, (Except.ok.inj h).symm, hlocate⟩

/-- That place is in a directory. -/
theorem site_of_makeDirectory (hrooted : tree.Rooted)
    (h : tree.makeDirectory cwd path = .ok tree') :
    tree.get? (target cwd path) = none ∧ tree.Site (target cwd path) ∧
      tree' = tree.insert (target cwd path) .directory := by
  obtain ⟨hne, hfree, hmade, hlocate⟩ := target_of_makeDirectory h
  have hslash : ∀ segment ∈ (path.segments.reverse.dropWhile (· = "")).reverse,
      '/' ∉ segment.toList := by
    intro segment hin
    have hsegment : segment ∈ path.segments :=
      List.mem_reverse.mp ((List.dropWhile_sublist _).mem (List.mem_reverse.mp hin))
    exact slash_not_mem_of_mem_segments hsegment
  have hsegments : path.isAbsolute = true ∨
      (path.segments.reverse.dropWhile (· = "")).reverse ≠ [] := by
    cases habsolute : path.isAbsolute with
    | true => exact .inl rfl
    | false => exact .inr (dropSlashes_ne_nil hne habsolute)
  have hsite := site_of_locateSegments hrooted hslash hsegments hlocate
  exact ⟨hfree, hsite.resolve_left (fun hthere => hthere hfree), hmade⟩

/-! ## 3. Directories that are made again -/

/-- A directory can be reached with slashes at the end or without them. -/
theorem walk_dropSlashes_iff {segments : List String} (h : tree.get? found = some .directory) :
    tree.walk location (segments.reverse.dropWhile (· = "")).reverse = .ok found ↔
      tree.walk location segments = .ok found := by
  induction segments using List.reverseRecOn with
  | nil => exact Iff.rfl
  | append_singleton before last ih =>
    rw [List.reverse_append, List.reverse_singleton, List.singleton_append, List.dropWhile_cons]
    split
    · next hlast =>
      obtain rfl := of_decide_eq_true hlast
      rw [ih, walk_append_iff]
      constructor
      · intro hwalk
        exact ⟨found, hwalk, walk_cons_iff.mpr ⟨h, .inl (.inl rfl), rfl⟩⟩
      · rintro ⟨middle, hmiddle, hlast⟩
        rw [eq_of_walk_eq_ok hlast]
        exact hmiddle
    · rw [List.reverse_cons, List.reverse_reverse]

theorem isDirectory_iff : tree.isDirectory cwd path = true ↔
    tree.locate cwd path = .ok (target cwd path) ∧
      tree.get? (target cwd path) = some .directory := by
  unfold isDirectory
  constructor
  · intro h
    split at h
    · next hlookup =>
      obtain ⟨found, hlocate, -⟩ := exists_of_bind_eq_ok hlookup
      refine ⟨?_, get?_of_lookup hlookup⟩
      rwa [← eq_target_of_locate hlocate]
    · exact absurd h (by simp)
  · rintro ⟨hlocate, hdirectory⟩
    simp only [lookup, hlocate, bind, Except.bind, hdirectory]
    rfl

theorem KeepsDirectories.isDirectory (hkeeps : KeepsDirectories tree tree')
    (h : tree.isDirectory cwd path = true) : tree'.isDirectory cwd path = true := by
  obtain ⟨hlocate, hdirectory⟩ := isDirectory_iff.mp h
  exact isDirectory_iff.mpr ⟨hkeeps.locate hlocate, hkeeps _ hdirectory⟩

/-- A directory that was made is there. -/
theorem isDirectory_of_makeDirectory (h : tree.makeDirectory cwd path = .ok tree') :
    tree'.isDirectory cwd path = true := by
  obtain ⟨-, hfree, htree, hlocate⟩ := target_of_makeDirectory h
  obtain ⟨hacceptable, hwalk⟩ := locateSegments_iff.mp hlocate
  have hkeeps : KeepsDirectories tree tree' := by
    rw [htree]
    exact keepsDirectories_insert (by simp [hfree])
  have hdirectory : tree'.get? (target cwd path) = some .directory := by
    rw [htree, get?_insert]
    split
    · rfl
    · rw [if_pos rfl]
  refine isDirectory_iff.mpr ⟨locate_iff.mpr ⟨hacceptable, ?_⟩, hdirectory⟩
  exact (walk_dropSlashes_iff hdirectory).mp (hkeeps.walk hwalk)

theorem isDirectory_of_createDirectories (hne : path.text ≠ "")
    (h : tree.createDirectories cwd path = (.ok (), tree')) : tree'.isDirectory cwd path = true := by
  -- Whatever is tried before, in the end the directory was made, or it is asked for.
  have hask {result : Except FileError Unit} {error : FileError} {tree : FileTree}
      (h : (if tree.isDirectory cwd path then .ok () else .error error, tree) = (result, tree'))
      (hok : result = .ok ()) : tree'.isDirectory cwd path = true := by
    obtain ⟨hresult, rfl⟩ := Prod.mk.inj h
    by_contra hnot
    rw [if_neg hnot, hok] at hresult
    exact absurd hresult (by simp)
  obtain ⟨above, habove⟩ := Path.ancestors_eq_cons path
  rw [createDirectories, habove, createAlong, if_neg hne] at h
  split at h
  · next hmake => exact (Prod.mk.inj h).2 ▸ isDirectory_of_makeDirectory hmake
  · split at h
    · exact absurd (Prod.mk.inj h).1 (by simp)
    · split at h
      · next hmake => exact (Prod.mk.inj h).2 ▸ isDirectory_of_makeDirectory hmake
      · exact hask h rfl
  · exact hask h rfl

/-- Where a directory is, none has to be made. -/
theorem createDirectories_of_isDirectory (h : tree.isDirectory cwd path = true) :
    tree.createDirectories cwd path = (.ok (), tree) := by
  obtain ⟨hlocate, hdirectory⟩ := isDirectory_iff.mp h
  obtain ⟨hacceptable, hwalk⟩ := locate_iff.mp hlocate
  have hthere : tree.makeDirectory cwd path = .error .alreadyExists := by
    have hlocate : tree.locateSegments cwd path (path.segments.reverse.dropWhile (· = "")).reverse
        = .ok (target cwd path) :=
      locateSegments_iff.mpr ⟨hacceptable, (walk_dropSlashes_iff hdirectory).mpr hwalk⟩
    simp only [makeDirectory, hlocate, bind, Except.bind, hdirectory]
    rfl
  obtain ⟨above, habove⟩ := Path.ancestors_eq_cons path
  rw [createDirectories, habove, createAlong, if_neg hacceptable.ne_empty, hthere]
  simp only [h, if_true]

/-- **Directories are made once.** After they were made, making them again does nothing, whatever has
come up beside them. -/
theorem createDirectories_again (h : tree.createDirectories cwd path = (.ok (), tree'))
    (hkeeps : KeepsDirectories tree' tree'') :
    tree''.createDirectories cwd path = (.ok (), tree'') := by
  by_cases hempty : path.text = ""
  · obtain ⟨above, habove⟩ := Path.ancestors_eq_cons path
    rw [createDirectories, habove, createAlong, if_pos hempty]
  · exact createDirectories_of_isDirectory
      (hkeeps.isDirectory (isDirectory_of_createDirectories hempty h))

/-! ## 4. Trees stay trees -/

/-- What is put where something is, or at a free place in a directory, stands in a directory. -/
theorem Rooted.insert (hrooted : tree.Rooted) {entry : Entry}
    (hfree : tree.get? location ≠ some .directory)
    (hsite : tree.get? location ≠ none ∨ tree.Site location) :
    (tree.insert location entry).Rooted := by
  obtain ⟨parent, name, rfl, hparent, hshort⟩ : ∃ parent name, location = parent ++ [name] ∧
      tree.get? parent = some .directory ∧ name.utf8ByteSize ≤ longestName := by
    rcases hsite with hthere | ⟨parent, name, rfl, hparent, -, hshort⟩
    · cases location using List.reverseRecOn with
      | nil => exact absurd (get?_nil tree) hfree
      | append_singleton parent name =>
        exact ⟨parent, name, rfl, hrooted.above _ _ hthere, hrooted.short _ _ hthere⟩
    · exact ⟨parent, name, rfl, hparent, hshort⟩
  have hkeeps : KeepsDirectories tree (tree.insert (parent ++ [name]) entry) :=
    keepsDirectories_insert hfree
  have hold {other : Location} {name' : String}
      (hother : (tree.insert (parent ++ [name]) entry).get? (other ++ [name']) ≠ none) :
      (other = parent ∧ name' = name) ∨ tree.get? (other ++ [name']) ≠ none := by
    rw [get?_insert, if_neg (by simp)] at hother
    split at hother
    · next heq =>
      obtain ⟨hparent, hname⟩ := List.append_inj' heq rfl
      exact .inl ⟨hparent, List.singleton_inj.mp hname⟩
    · exact .inr hother
  constructor
  · intro other name' hother
    rcases hold hother with ⟨rfl, -⟩ | hthere
    · exact hkeeps _ hparent
    · exact hkeeps _ (hrooted.above _ _ hthere)
  · intro other name' hother
    rcases hold hother with ⟨-, rfl⟩ | hthere
    · exact hshort
    · exact hrooted.short _ _ hthere

theorem get?_ne_none_of_erase {other : Location} (h : (tree.erase location).get? other ≠ none) :
    tree.get? other ≠ none := by
  rw [get?_erase] at h
  split at h
  · next hroot => simp [hroot, get?_nil]
  · split at h
    · exact absurd rfl h
    · exact h

/-- Nothing stands in a file, so taking it away leaves nothing behind without a directory. -/
theorem Rooted.erase (hrooted : tree.Rooted) (hfile : tree.get? location = some (.file content)) :
    (tree.erase location).Rooted := by
  refine ⟨fun other name hother => ?_, fun other name hother =>
    hrooted.short _ _ (get?_ne_none_of_erase hother)⟩
  have habove := hrooted.above _ _ (get?_ne_none_of_erase hother)
  rw [get?_erase]
  split
  · rfl
  · rw [if_neg, habove]
    rintro rfl
    exact absurd (habove.symm.trans hfile) (by simp)

theorem Rooted.removeFile (hrooted : tree.Rooted) (h : tree.removeFile cwd path = .ok tree') :
    tree'.Rooted := by
  obtain ⟨⟨content, hfile⟩, rfl⟩ := removeFile_eq_ok h
  exact hrooted.erase hfile

theorem Rooted.makeDirectory (hrooted : tree.Rooted)
    (h : tree.makeDirectory cwd path = .ok tree') : tree'.Rooted := by
  obtain ⟨hfree, hsite, rfl⟩ := site_of_makeDirectory hrooted h
  exact hrooted.insert (by simp [hfree]) (.inr hsite)

end FileTree

end Graft
