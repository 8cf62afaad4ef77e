/-
What is left when a store was flushed.

Flushing forgets what was read and deletes the files of the directory that have the extension of records.
Which files these are is told by the listing of the directory. A record comes about in another way: it is
written to an entry of the directory, once the directory was made. For most paths the two ways lead to the
same place, and then a flush that succeeds leaves a directory as if there had never been a record in it.

Two kinds of paths are different. The empty path has entries, those of the working directory, but it cannot
be listed. And a path that goes into a directory and out of it again cannot be listed while that directory
is missing, whereas a request for a record makes it first. What cannot be listed counts as holding nothing.

`Workshop.flush_complete` tells what a flush that succeeds has done, whatever the path and the files are,
and after any requests; `Workshop.record_survives_flush` shows a path of either kind.
-/
import Graft.Proofs.SameFiles
import Graft.Proofs.StaleArtifacts
import Graft.Proofs.Transparency

set_option autoImplicit false

namespace Graft

open FileTree (Location Simple target)
open WrapperStore (fileName recordPath)

variable {w w' : World} {directory : Path}

namespace FileTree

variable {tree : FileTree} {cwd : Location} {path : Path} {names : List String}

/-! ## 1. Listings -/

/-- What can be listed is a directory that can be reached. -/
theorem isDirectory_of_list (h : tree.list cwd path = .ok names) :
    tree.isDirectory cwd path = true := by
  obtain ⟨found, hlocate, h⟩ := exists_of_bind_eq_ok h
  obtain rfl := eq_target_of_locate hlocate
  split at h
  · next hdirectory => exact isDirectory_iff.mpr ⟨hlocate, hdirectory⟩
  · exact absurd h throw_ne_ok
  · exact absurd h throw_ne_ok

/-- A directory that can be reached can be listed, with everything in it. -/
theorem list_of_isDirectory (h : tree.isDirectory cwd path = true) :
    ∃ names, tree.list cwd path = .ok names ∧
      ∀ name, tree.get? (target cwd path ++ [name]) ≠ none → name ∈ names := by
  obtain ⟨hlocate, hdirectory⟩ := isDirectory_iff.mp h
  have hlist : tree.list cwd path
      = .ok (tree.entries.keys.filterMap (childName? (target cwd path))) := by
    simp only [list, hlocate, bind, Except.bind, hdirectory]
    rfl
  refine ⟨_, hlist, fun name hthere => ?_⟩
  obtain ⟨entry, hentry⟩ := Option.ne_none_iff_exists'.mp hthere
  obtain ⟨names, hnames, hin⟩ := mem_list hlocate hdirectory hentry
  rwa [Except.ok.inj (hlist.symm.trans hnames)]

/-- A path with nothing missing on the way is not said to lead to nothing. -/
theorem acceptable_of_list_notFound (hne : path.text ≠ "")
    (h : tree.list cwd path = .error .notFound) : Acceptable path := by
  unfold list locate locateSegments at h
  constructor
  · by_contra hnul
    rw [if_pos (by simpa using hnul)] at h
    exact absurd h (by simp [bind, Except.bind])
  · exact hne
  · by_contra hlong
    rw [if_neg hne, if_pos (Nat.lt_of_not_le hlong)] at h
    split at h
    · exact absurd h (by simp [bind, Except.bind])
    · exact absurd h (by simp [bind, Except.bind])

/-- An entry at which something is stands in a directory that can be reached, unless the directory has
the empty path. -/
theorem isDirectory_of_present {directory : Path} {name : String} (hne : directory.text ≠ "")
    (hname : Simple name) (h : tree.present cwd (directory.entry name) = true) :
    tree.isDirectory cwd directory = true := by
  cases hlocate : tree.locate cwd (directory.entry name) with
  | error error =>
    rw [present, lookup, hlocate] at h
    exact absurd h (by simp [bind, Except.bind, Except.toOption])
  | ok found =>
    obtain ⟨location, hfound, hdirectory⟩ := locate_directory hne hname hlocate
    obtain rfl := eq_target_of_locate hfound
    exact isDirectory_iff.mpr ⟨hfound, hdirectory⟩

end FileTree

namespace WrapperStore

/-! ## 2. Deleting records -/

/-- The places in a directory whose names have the extension of records. -/
def RecordPlace (place location : Location) : Prop :=
  ∃ name, Path.extensionOf? name = some "json" ∧ location = place ++ [name]

/-- The names among some that have the extension of records. -/
def recordNames (names : List String) : List String :=
  names.filter fun name => Path.extensionOf? name = some "json"

theorem mem_recordNames {names : List String} {name : String} :
    name ∈ recordNames names ↔ name ∈ names ∧ Path.extensionOf? name = some "json" := by
  rw [recordNames, List.mem_filter, decide_eq_true_iff]

/-- The file for a name has the extension, whatever the name. -/
theorem extensionOf?_fileName (name : String) : Path.extensionOf? (fileName name) = some "json" := by
  rw [fileName, Artifact.extensionOf?_json, if_neg]
  intro hempty
  have hchars := congrArg String.toList hempty
  simp at hchars

theorem recordPlace_recordPath (cwd : Location) (directory : Path) (name : String) :
    RecordPlace (target cwd directory) (target cwd (recordPath directory name)) :=
  ⟨fileName name, extensionOf?_fileName name, target_recordPath cwd directory name⟩

/-- Some files of a directory were deleted, and nothing else has happened to the files of a machine. -/
structure Deleted (directory : Path) (names : List String) (w w' : World) : Prop where
  cwd : w'.cwd = w.cwd
  distinct : names.Nodup
  files : ∀ name ∈ names, ∃ content,
    w.tree.content? (target w.cwd directory ++ [name]) = some content
  gone : ∀ name ∈ names, w'.tree.get? (target w.cwd directory ++ [name]) = none
  kept : ∀ location, (∀ name ∈ names, location ≠ target w.cwd directory ++ [name]) →
    w'.tree.get? location = w.tree.get? location

theorem Deleted.nil (directory : Path) (w : World) : Deleted directory [] w w :=
  ⟨rfl, List.nodup_nil, fun _ h => absurd h List.not_mem_nil, fun _ h => absurd h List.not_mem_nil,
    fun _ _ => rfl⟩

/-- What was not deleted is there still. -/
theorem Deleted.get?_of_not_mem {names : List String} {name : String}
    (h : Deleted directory names w w') (hnot : name ∉ names) :
    w'.tree.get? (target w.cwd directory ++ [name])
      = w.tree.get? (target w.cwd directory ++ [name]) := by
  refine h.kept _ fun other hother heq => hnot ?_
  rwa [List.singleton_inj.mp (List.append_cancel_left heq)]

theorem Deleted.single {name : String} (hname : Simple name)
    (h : (Host.removeFile (directory.entry name) : StateM World _).run w = (.ok (), w')) :
    Deleted directory [name] w w' := by
  rw [World.run_removeFile] at h
  rcases World.change_cases h with ⟨_, herror, -⟩ | ⟨tree, htree, -, rfl⟩
  · exact absurd herror (by simp)
  obtain ⟨⟨content, hfile⟩, rfl⟩ := FileTree.removeFile_eq_ok htree
  rw [FileTree.target_entry _ _ hname] at hfile ⊢
  have herase (location : Location) :
      (w.tree.erase (target w.cwd directory ++ [name])).get? location
        = if location = target w.cwd directory ++ [name] then none else w.tree.get? location := by
    rw [FileTree.get?_erase]
    -- An entry is never the root, which could not be deleted.
    by_cases hroot : location = []
    · rw [hroot, if_pos rfl, if_neg (by simp), FileTree.get?_nil]
    · rw [if_neg hroot]
  refine ⟨rfl, List.nodup_singleton name, fun other hother => ?_, fun other hother => ?_,
    fun location hnot => ?_⟩
  · obtain rfl := List.mem_singleton.mp hother
    exact ⟨content, FileTree.content?_eq_some_iff.mpr hfile⟩
  · obtain rfl := List.mem_singleton.mp hother
    exact (herase _).trans (if_pos rfl)
  · exact (herase location).trans (if_neg (hnot name (List.mem_singleton_self name)))

theorem Deleted.trans {names others : List String} {w₁ : World} (h : Deleted directory names w w₁)
    (h' : Deleted directory others w₁ w') : Deleted directory (names ++ others) w w' := by
  -- What is gone cannot be deleted once more.
  have hdisjoint (name : String) (hname : name ∈ names) : name ∉ others := by
    intro hother
    obtain ⟨content, hcontent⟩ := h'.files name hother
    rw [FileTree.content?_eq_some_iff, h.cwd, h.gone name hname] at hcontent
    exact absurd hcontent (by simp)
  constructor
  · exact h'.cwd.trans h.cwd
  · exact h.distinct.append h'.distinct hdisjoint
  · intro name hin
    rcases List.mem_append.mp hin with hname | hother
    · exact h.files name hname
    · obtain ⟨content, hcontent⟩ := h'.files name hother
      rw [FileTree.content?_eq_some_iff, h.cwd,
        h.get?_of_not_mem fun hname => hdisjoint name hname hother] at hcontent
      exact ⟨content, FileTree.content?_eq_some_iff.mpr hcontent⟩
  · intro name hin
    rw [← h.cwd]
    by_cases hother : name ∈ others
    · exact h'.gone name hother
    · rw [h'.get?_of_not_mem hother, h.cwd]
      exact h.gone name ((List.mem_append.mp hin).resolve_right hother)
  · intro location hnot
    rw [h'.kept, h.kept]
    · exact fun name hname => hnot name (List.mem_append_left _ hname)
    · rw [h.cwd]
      exact fun name hname => hnot name (List.mem_append_right _ hname)

/-- The files that are gone are as many as the names are. -/
theorem Deleted.exists_gone {names : List String} (h : Deleted directory names w w') :
    ∃ gone : List Location, gone.Nodup ∧ gone.length = names.length ∧ ∀ location,
      location ∈ gone ↔
        (∃ content, w.tree.content? location = some content) ∧ w'.tree.get? location = none := by
  refine ⟨names.map (target w.cwd directory ++ [·]), ?_, List.length_map _, fun location => ?_⟩
  · exact h.distinct.map fun _ _ heq => List.singleton_inj.mp (List.append_cancel_left heq)
  · rw [List.mem_map]
    constructor
    · rintro ⟨name, hname, rfl⟩
      exact ⟨h.files name hname, h.gone name hname⟩
    · rintro ⟨⟨content, hcontent⟩, hnone⟩
      by_contra hother
      rw [h.kept location fun name hname heq => hother ⟨name, hname, heq.symm⟩] at hnone
      rw [FileTree.content?_eq_some_iff, hnone] at hcontent
      exact absurd hcontent (by simp)

/-- What deleting the records among some names comes to, if it succeeds. -/
theorem deleted_of_removeRecords {names : List String} (hsimple : ∀ name ∈ names, Simple name)
    {removed : Nat} (h : (removeRecords directory names :
      ExceptT WrapperError (StateM World) Nat).run.run w = (.ok removed, w')) :
    (recordNames names).length = removed ∧ Deleted directory (recordNames names) w w' := by
  induction names generalizing w removed with
  | nil =>
    obtain ⟨hremoved, rfl⟩ := Prod.mk.inj h
    exact ⟨Except.ok.inj hremoved, .nil directory w⟩
  | cons name rest ih =>
    obtain ⟨hname, hrest⟩ := List.forall_mem_cons.mp hsimple
    rw [removeRecords] at h
    by_cases hjson : Path.extensionOf? name = some "json"
    · rw [if_pos hjson] at h
      obtain ⟨_, w₁, hfirst, h⟩ := run_bind_eq_ok h
      obtain ⟨others, w₂, hothers, h⟩ := run_bind_eq_ok h
      obtain ⟨hremoved, rfl⟩ := Prod.mk.inj h
      obtain ⟨hlength, hdeleted⟩ := ih hrest hothers
      have hnames : recordNames (name :: rest) = name :: recordNames rest :=
        List.filter_cons_of_pos (by simp [hjson])
      rw [hnames, List.length_cons, hlength]
      exact ⟨Except.ok.inj hremoved, (Deleted.single hname (run_mapError_eq_ok hfirst)).trans hdeleted⟩
    · rw [if_neg hjson] at h
      have hnames : recordNames (name :: rest) = recordNames rest :=
        List.filter_cons_of_neg (by simp [hjson])
      rw [hnames]
      exact ih hrest h

/-- The store is as good as new after a flush, whether it succeeds or not. -/
theorem store_of_flush {σ : Type} [Host (StateM σ)] {store store' : WrapperStore} {s s' : σ}
    {result : Except WrapperError Nat}
    (h : (store.flush : StateM σ _).run s = ((result, store'), s')) :
    store' = new store.directory := by
  unfold flush at h
  split at h
  · next hnone => rw [hnone, ← (Prod.mk.inj (Prod.mk.inj h).1).2]
  · next directory hsome => rw [hsome, ← (Prod.mk.inj (Prod.mk.inj h).1).2]

/-- A flush that succeeds has found no directory and done nothing, or has listed the directory and
deleted the records in it. -/
theorem flush_cases {store store' : WrapperStore} {removed : Nat}
    (hdirectory : store.directory = some directory)
    (h : (store.flush : StateM World _).run w = ((.ok removed, store'), w')) :
    (w.tree.list w.cwd directory = .error .notFound ∧ removed = 0 ∧ w' = w) ∨
      ∃ names w₁, w.tree.list w.cwd directory = .ok names ∧
        (removeRecords directory names :
          ExceptT WrapperError (StateM World) Nat).run.run w = (.ok removed, w₁) ∧
        w'.tree = w₁.tree ∧ w'.cwd = w₁.cwd := by
  have hrun : (flushDirectory directory : ExceptT WrapperError (StateM World) Nat).run.run w
      = (.ok removed, w') := by
    rw [flush, hdirectory] at h
    obtain ⟨hpair, hmachine⟩ := Prod.mk.inj h
    exact Prod.ext (Prod.mk.inj hpair).1 hmachine
  obtain ⟨listed, w₁, hlook, hrun⟩ := run_bind_eq_ok hrun
  rw [run_lift] at hlook
  obtain ⟨hlisted, rfl⟩ := Prod.mk.inj hlook
  have hlisted : w.tree.list w.cwd directory = listed := Except.ok.inj hlisted
  subst hlisted
  split at hrun
  · next hnone =>
    obtain ⟨hremoved, rfl⟩ := Prod.mk.inj hrun
    exact .inl ⟨hnone, (Except.ok.inj hremoved).symm, rfl⟩
  · exact absurd (Prod.mk.inj hrun).1 (by rintro ⟨⟩)
  · next names hnames =>
    obtain ⟨count, w₂, hremove, hrun⟩ := run_bind_eq_ok hrun
    obtain ⟨_, w₃, hlog, hrun⟩ := run_bind_eq_ok hrun
    obtain ⟨hcount, rfl⟩ := Prod.mk.inj hrun
    obtain rfl := Except.ok.inj hcount
    -- Reporting the number is all that is left to do.
    obtain ⟨-, rfl⟩ := Prod.mk.inj hlog
    exact .inr ⟨names, w₂, hnames, hremove, rfl, rfl⟩

/-! ## 3. One flush -/

/-- What a directory holds in the places of records is in sight of its path: the path can be followed
and leads to a directory, unless there is nothing. -/
def InSight (directory : Path) (w : World) : Prop :=
  ∀ location, RecordPlace (target w.cwd directory) location → w.tree.get? location ≠ none →
    w.tree.isDirectory w.cwd directory = true

/-- A machine is like another one, except that its directory has never held any record. -/
structure NeverHeld (directory : Path) (w v : World) : Prop where
  cwd : v.cwd = w.cwd
  others : ∀ location, ¬ RecordPlace (target w.cwd directory) location →
    v.tree.get? location = w.tree.get? location
  records : ∀ location, RecordPlace (target w.cwd directory) location → v.tree.get? location = none

/-- What holds of a store and a machine after a flush that gave a number. -/
structure Flushed (directory : Path) (removed : Nat) (w : World) (store' : WrapperStore) (w' : World) :
    Prop where
  /-- No record counts as read. -/
  forgotten : ∀ name, store'.isLoaded name = false
  /-- The number is that of the files that are gone. -/
  counted : ∃ gone : List Location, gone.Nodup ∧ gone.length = removed ∧ ∀ location,
    location ∈ gone ↔
      (∃ content, w.tree.content? location = some content) ∧ w'.tree.get? location = none
  /-- Nothing has changed but entries of the directory that have the extension of records. -/
  untouched : ∀ location, ¬ RecordPlace (target w.cwd directory) location →
    w'.tree.get? location = w.tree.get? location
  /-- No path of a record leads to anything, unless the directory has the empty path. Then what was there
  is there still. -/
  absent : ∀ name, w'.tree.present w'.cwd (recordPath directory name) = true ↔
    directory.text = "" ∧ w.tree.present w.cwd (recordPath directory name) = true
  /-- No record is left in the directory exactly if all were in sight. -/
  cleared : (∀ location, RecordPlace (target w.cwd directory) location →
    w'.tree.get? location = none) ↔ InSight directory w
  /-- They were, if the path of the directory is not empty and never goes back up. -/
  inSight : directory.text ≠ "" → ".." ∉ directory.segments → InSight directory w
  /-- If they were, then the next request for any name is answered as by a new store in a directory that
  has never held a record, and it leaves the same files. -/
  afresh : InSight directory w → ∀ v, NeverHeld directory w v → ∀ blueprints name,
    let after := (store'.materialize blueprints (.named name) : StateM World _).run w'
    let anew := ((new (some directory)).materialize blueprints (.named name) : StateM World _).run v
    anew.1 = after.1 ∧ World.SameFiles after.2 anew.2

/-- A store that has read nothing remembers no name. -/
theorem isLoaded_new (directory : Option Path) (name : String) :
    (new directory).isLoaded name = false := by
  cases directory <;> rfl

/-- Where there is no record any more, a machine is the same to a request as one that never held any. -/
theorem materialize_of_cleared {v : World} (hcwd : w'.cwd = w.cwd)
    (huntouched : ∀ location, ¬ RecordPlace (target w.cwd directory) location →
      w'.tree.get? location = w.tree.get? location)
    (hcleared : ∀ location, RecordPlace (target w.cwd directory) location →
      w'.tree.get? location = none)
    (hv : NeverHeld directory w v) (store : WrapperStore) (blueprints : Blueprints)
    (unit : BundleRef) :
    ((store.materialize blueprints unit : StateM World _).run v).1
        = ((store.materialize blueprints unit : StateM World _).run w').1 ∧
      World.SameFiles ((store.materialize blueprints unit : StateM World _).run w').2
        ((store.materialize blueprints unit : StateM World _).run v).2 := by
  have hsame : World.SameFiles w' v := by
    refine ⟨hv.cwd.trans hcwd.symm, fun location => ?_⟩
    by_cases hplace : RecordPlace (target w.cwd directory) location
    · rw [hv.records location hplace, hcleared location hplace]
    · rw [hv.others location hplace, huntouched location hplace]
  exact World.interchangeable_sameFiles.blind_materialize store blueprints unit hsame

/-- On a path that only goes down, everything is in sight of a flush that succeeds. -/
theorem inSight_of_rooted (hrooted : w.tree.Rooted) (hne : directory.text ≠ "")
    (hdown : ".." ∉ directory.segments)
    (hlist : w.tree.list w.cwd directory = .error .notFound ∨
      w.tree.isDirectory w.cwd directory = true) : InSight directory w := by
  rintro location ⟨name, -, rfl⟩ hthere
  refine hlist.elim (fun hnone => ?_) id
  -- What is there stands in a directory, and a path that only goes down leads to what there is.
  have hdirectory := hrooted.above _ _ hthere
  have hpath := FileTree.acceptable_of_list_notFound hne hnone
  refine FileTree.isDirectory_iff.mpr ⟨FileTree.locate_iff.mpr ⟨hpath, ?_⟩, hdirectory⟩
  exact FileTree.walk_of_directory hrooted hdown hdirectory

/-- A directory that was not found: nothing has been done, and the number is zero. -/
theorem flushed_of_notFound (hrooted : w.tree.Rooted)
    (hlist : w.tree.list w.cwd directory = .error .notFound) :
    Flushed directory 0 w (new (some directory)) w := by
  have hmissing : w.tree.isDirectory w.cwd directory = false := by
    rw [← Bool.not_eq_true]
    intro hthere
    obtain ⟨names, hnames, -⟩ := FileTree.list_of_isDirectory hthere
    exact absurd (hnames.symm.trans hlist) (by simp)
  have hcleared : (∀ location, RecordPlace (target w.cwd directory) location →
      w.tree.get? location = none) ↔ InSight directory w := by
    constructor
    · exact fun hnone location hplace hthere => absurd (hnone location hplace) hthere
    · intro hsight location hplace
      by_contra hthere
      exact absurd (hmissing.symm.trans (hsight location hplace hthere)) (by simp)
  constructor
  · exact isLoaded_new (some directory)
  · refine ⟨[], List.nodup_nil, rfl, fun location => ⟨fun h => absurd h List.not_mem_nil, ?_⟩⟩
    rintro ⟨⟨content, hcontent⟩, hnone⟩
    rw [FileTree.content?_eq_some_iff, hnone] at hcontent
    exact absurd hcontent (by simp)
  · exact fun _ _ => rfl
  · intro name
    refine ⟨fun hthere => ⟨?_, hthere⟩, And.right⟩
    by_contra hne
    have hfound := FileTree.isDirectory_of_present hne (simple_fileName name) hthere
    exact absurd (hmissing.symm.trans hfound) (by simp)
  · exact hcleared
  · exact fun hne hdown => inSight_of_rooted hrooted hne hdown (.inl hlist)
  · intro hsight v hv blueprints name
    exact materialize_of_cleared rfl (fun _ _ => rfl) (hcleared.mpr hsight) hv _ blueprints _

/-- A directory that was listed: its records are gone. -/
theorem flushed_of_deleted {names : List String}
    (hlist : w.tree.list w.cwd directory = .ok names)
    (hdeleted : Deleted directory (recordNames names) w w') :
    Flushed directory (recordNames names).length w (new (some directory)) w' := by
  have hfound := FileTree.isDirectory_of_list hlist
  have hcleared (location : Location) (hplace : RecordPlace (target w.cwd directory) location) :
      w'.tree.get? location = none := by
    obtain ⟨name, hjson, rfl⟩ := hplace
    by_cases hin : name ∈ recordNames names
    · exact hdeleted.gone name hin
    · -- An entry that was there would have been listed, and deleted for its extension.
      rw [hdeleted.get?_of_not_mem hin]
      obtain ⟨names', hnames', hall⟩ := FileTree.list_of_isDirectory hfound
      obtain rfl := Except.ok.inj (hlist.symm.trans hnames')
      by_contra hthere
      exact hin (mem_recordNames.mpr ⟨hall name hthere, hjson⟩)
  have huntouched (location : Location)
      (hplace : ¬ RecordPlace (target w.cwd directory) location) :
      w'.tree.get? location = w.tree.get? location := by
    refine hdeleted.kept location ?_
    rintro name hname rfl
    exact hplace ⟨name, (mem_recordNames.mp hname).2, rfl⟩
  constructor
  · exact isLoaded_new (some directory)
  · exact hdeleted.exists_gone
  · exact huntouched
  · intro name
    have hnone : w'.tree.present w'.cwd (recordPath directory name) = false := by
      rw [hdeleted.cwd]
      exact FileTree.present_of_get?_eq_none (hcleared _ (recordPlace_recordPath _ _ name))
    obtain ⟨hlocate, -⟩ := FileTree.isDirectory_iff.mp hfound
    have hne : directory.text ≠ "" := (FileTree.locate_iff.mp hlocate).1.ne_empty
    simp [hnone, hne]
  · exact ⟨fun _ _ _ _ => hfound, fun _ => hcleared⟩
  · exact fun _ _ _ _ _ => hfound
  · intro _ v hv blueprints name
    exact materialize_of_cleared hdeleted.cwd huntouched hcleared hv _ blueprints _

/-- What a flush that succeeds has done to a tidy directory, whatever the store has read. -/
theorem flushed_of_flush {store store' : WrapperStore} {removed : Nat}
    (hdirectory : store.directory = some directory)
    (htidy : Artifact.Tidy (target w.cwd directory) w.tree)
    (h : (store.flush : StateM World _).run w = ((.ok removed, store'), w')) :
    Flushed directory removed w store' w' := by
  obtain rfl : store' = new (some directory) := hdirectory ▸ store_of_flush h
  rcases flush_cases hdirectory h with ⟨hnone, rfl, rfl⟩ | ⟨names, w₁, hlist, hremove, htree, hcwd⟩
  · exact flushed_of_notFound htidy.rooted hnone
  · have hsimple (name : String) (hname : name ∈ names) : Simple name :=
      htidy.simple name (FileTree.get?_of_mem_list hlist hname)
    obtain ⟨rfl, hdeleted⟩ := deleted_of_removeRecords hsimple hremove
    obtain ⟨hcwd₁, hdistinct, hfiles, hgone, hkept⟩ := hdeleted
    rw [← htree] at hgone hkept
    exact flushed_of_deleted hlist ⟨hcwd.trans hcwd₁, hdistinct, hfiles, hgone, hkept⟩

end WrapperStore

/-! ## 4. After any jobs -/

/-- On a machine everything stands in a directory, under a name that an entry may have. -/
def World.Proper (w : World) : Prop := ∀ place, Artifact.Tidy place w.tree

namespace World

/-- One machine is as proper as another. -/
def StaysProper (w w' : World) : Prop := w.Proper → w'.Proper

theorem composable_staysProper : Composable StaysProper := ⟨fun _ => id, fun h h' => h' ∘ h⟩

theorem staysProper_of_keepsTidy (h : ∀ place, Artifact.KeepsTidy place w w') : StaysProper w w' :=
  fun hproper place => ((h place).2 (hproper place)).1

theorem staysProper_of_change {f : FileTree → Except FileError FileTree}
    (hf : ∀ {tree place}, f w.tree = .ok tree → Artifact.Tidying place w.tree tree) :
    StaysProper w ((change f).run w).2 := by
  rcases hrun : (change f).run w with ⟨result, w'⟩
  exact staysProper_of_keepsTidy fun _ => Artifact.keepsTidy_of_change (fun htree => hf htree) hrun

theorem loading_staysProper : WrapperStore.Loading StaysProper where
  composable := composable_staysProper
  present _ w := composable_staysProper.refl w
  readBytes _ w := composable_staysProper.refl w
  createDirectories path w := staysProper_of_keepsTidy fun _ =>
    ⟨rfl, Artifact.tidying_createDirectories w.tree w.cwd path⟩
  createFile path content w := by
    rw [run_createFile]
    exact staysProper_of_change Artifact.tidying_createFile
  log _ w := staysProper_of_keepsTidy fun _ => ⟨rfl, Artifact.composable_tidying.refl w.tree⟩

theorem erasing_staysProper : WrapperStore.Erasing StaysProper where
  composable := composable_staysProper
  list _ w := composable_staysProper.refl w
  removeFile path w := by
    rw [run_removeFile]
    exact staysProper_of_change Artifact.tidying_removeFile
  log := loading_staysProper.log

end World

namespace WrapperStore

theorem Erasing.flush {σ : Type} [Host (StateM σ)] {R : σ → σ → Prop} (h : Erasing R)
    (store : WrapperStore) : Keeps R (store.flush : StateM σ _) := by
  have hR := h.composable
  unfold WrapperStore.flush
  split
  · exact Keeps.pure hR _
  · exact Keeps.bind hR (h.flushDirectory _) fun _ => Keeps.pure hR _

end WrapperStore

namespace Workshop

section

variable {σ : Type} [Host (StateM σ)] {R : σ → σ → Prop} {jobs : List (Job σ)}

/-- What requests and flushes respect, and somebody else as well, is respected by every job. -/
theorem machine_step (hloading : WrapperStore.Loading R) (herasing : WrapperStore.Erasing R)
    {job : Job σ} (hothers : ∀ change, job = .others change → ∀ s, R s (change s))
    (w : Workshop σ) : R w.machine (w.step job).2.machine := by
  cases job with
  | define => exact hloading.composable.refl _
  | materialize store shelf unit =>
    have hkeeps : Keeps R ((w.stores store).materialize (w.shelves shelf) unit : StateM σ _) :=
      WrapperStore.keeps_materialize hloading.composable fun name path _ =>
        hloading.load _ name path
    exact hkeeps w.machine
  | flush store => exact herasing.flush (w.stores store) w.machine
  | others change => exact hothers change rfl w.machine

theorem machine_after (hloading : WrapperStore.Loading R) (herasing : WrapperStore.Erasing R)
    (hothers : ∀ change, .others change ∈ jobs → ∀ s, R s (change s)) (w : Workshop σ) :
    R w.machine (w.after jobs).machine := by
  induction jobs generalizing w with
  | nil => exact hloading.composable.refl _
  | cons job rest ih =>
    -- The workshop is any one, so that the rest can start from where the first job ends.
    refine hloading.composable.trans ?_ (ih (fun change hin => ?_) (w.step job).2)
    · exact machine_step hloading herasing
        (fun change heq => hothers change (heq ▸ List.mem_cons_self)) w
    · exact hothers change (List.mem_cons_of_mem _ hin)

/-- No job makes a store go elsewhere. -/
theorem directory_step (w : Workshop σ) (job : Job σ) (number : Nat) :
    ((w.step job).2.stores number).directory = (w.stores number).directory := by
  have hexchange {other : Nat} {kept : WrapperStore}
      (hkept : kept.directory = (w.stores other).directory) :
      (exchange w.stores other kept number).directory = (w.stores number).directory := by
    rw [exchange]
    split
    · next heq => rw [hkept, heq]
    · rfl
  cases job with
  | define => rfl
  | others => rfl
  | materialize store shelf unit =>
    rcases hrun : ((w.stores store).materialize (w.shelves shelf) unit : StateM σ _).run w.machine
      with ⟨⟨made, kept, blueprints⟩, machine⟩
    rw [step_materialize hrun]
    exact hexchange (WrapperStore.kept_of_materialize hrun).1
  | flush store =>
    rcases hrun : ((w.stores store).flush : StateM σ _).run w.machine
      with ⟨⟨removed, kept⟩, machine⟩
    rw [step_flush hrun]
    refine hexchange ?_
    rw [WrapperStore.store_of_flush hrun]
    rfl

theorem directory_after (w : Workshop σ) (jobs : List (Job σ)) (number : Nat) :
    ((w.after jobs).stores number).directory = (w.stores number).directory := by
  induction jobs generalizing w with
  | nil => rfl
  | cons job rest ih => exact (ih (w.step job).2).trans (directory_step w job number)

end

/-- **Flushing is complete, as far as the directory is in sight.** Whatever was on a machine and whatever
the path of a directory is, after any jobs of any stores, and of somebody else who keeps the machine
proper, a flush that gives a number has forgotten every record, deleted that many files and changed
nothing else; and it leaves the directory as if there had never been a record in it, exactly if every
record in it was in sight. -/
theorem flush_complete (start : Workshop World) (jobs : List (Job World)) (number : Nat)
    (hproper : start.machine.Proper)
    (hothers : ∀ change, .others change ∈ jobs → ∀ w, World.StaysProper w (change w))
    (hdirectory : (start.stores number).directory = some directory) {removed : Nat}
    {store' : WrapperStore}
    (h : (((start.after jobs).stores number).flush : StateM World _).run (start.after jobs).machine
      = ((.ok removed, store'), w')) :
    WrapperStore.Flushed directory removed (start.after jobs).machine store' w' := by
  have hafter : (start.after jobs).machine.Proper :=
    machine_after World.loading_staysProper World.erasing_staysProper hothers start hproper
  exact WrapperStore.flushed_of_flush ((directory_after start jobs number).trans hdirectory)
    (hafter _) h

/-- A workshop whose stores have one directory and have read nothing. -/
def sharing (directory : Path) (machine : World) : Workshop World where
  stores _ := .new (some directory)
  shelves _ := Registry.gallery.blueprints
  machine := machine

/-- One store has made a record, and another one flushes it. -/
theorem flush_complete_sharing :
    ∃ w store' w', ((sharing ⟨"w"⟩ (.fresh [] ⟨"tmp"⟩)).after
        [.materialize 1 0 (.named "Greeter")]).machine = w ∧
      WrapperStore.Flushed ⟨"w"⟩ 1 w store' w' ∧
      ∀ name, w'.tree.present w'.cwd (recordPath ⟨"w"⟩ name) = false := by
  let jobs : List (Job World) := [.materialize 1 0 (.named "Greeter")]
  let start := sharing ⟨"w"⟩ (.fresh [] ⟨"tmp"⟩)
  rcases hrun : (((start.after jobs).stores 0).flush : StateM World _).run (start.after jobs).machine
    with ⟨⟨removed, store'⟩, w'⟩
  have hremoved : ((((start.after jobs).stores 0).flush : StateM World _).run
      (start.after jobs).machine).1.1.toOption = some 1 := by decide +kernel
  rw [hrun] at hremoved
  obtain rfl := eq_ok_of_toOption hremoved
  have hempty (location : Location) (name : String) :
      ¬ start.machine.tree.get? (location ++ [name]) ≠ none := by
    rw [FileTree.get?, if_neg (by simp)]
    exact fun hthere => hthere rfl
  have hproper : start.machine.Proper := fun place =>
    ⟨⟨fun location name h => absurd h (hempty location name),
      fun location name h => absurd h (hempty location name)⟩,
      fun name h => absurd h (hempty place name)⟩
  have hflushed := flush_complete start jobs 0 hproper (by simp [jobs]) rfl hrun
  refine ⟨_, store', w', rfl, hflushed, fun name => ?_⟩
  rw [← Bool.not_eq_true, hflushed.absent]
  exact fun h => absurd h.1 (by decide)

/-- A record was made in the working directory. -/
def pathless : Workshop World :=
  (sharing ⟨""⟩ (.fresh [] ⟨"tmp"⟩)).after [.materialize 0 0 (.named "Greeter")]

/-- The way to a file that is no record leads through a directory that is not there. -/
def roundabout : Workshop World :=
  sharing ⟨"a/../w"⟩ (Registry.recordHolder "Greeter" "?".toUTF8)

/-- The same machine without that file. -/
def recordless : World where
  tree := FileTree.empty.insert ["w"] .directory
  cwd := []
  temporary := ⟨"tmp"⟩
  events := []

theorem neverHeld_recordless :
    WrapperStore.NeverHeld ⟨"a/../w"⟩ roundabout.machine recordless := by
  have hplace : target [] ⟨"a/../w"⟩ = ["w"] := by decide +kernel
  refine ⟨rfl, fun location hother => ?_, ?_⟩
  · have hne : location ≠ ["w", fileName "Greeter"] := by
      rintro rfl
      refine hother ⟨fileName "Greeter", WrapperStore.extensionOf?_fileName "Greeter", ?_⟩
      show _ = target [] ⟨"a/../w"⟩ ++ _
      rw [hplace]
      rfl
    show recordless.tree.get? location
      = (recordless.tree.insert ["w", fileName "Greeter"] _).get? location
    rw [FileTree.get?_insert, if_neg hne, recordless, FileTree.get?_insert]
    split
    · rfl
    · rfl
  · rintro location ⟨name, -, rfl⟩
    show (FileTree.empty.insert ["w"] .directory).get? (target [] ⟨"a/../w"⟩ ++ [name]) = none
    rw [hplace, FileTree.get?_insert, if_neg (by simp), if_neg (by simp)]
    rfl

/-- **A record survives a flush.** The empty path has entries and no listing: what was written there is
still there. And a directory may be out of sight until the next request makes it: that request then finds
a record, where it would have written one if there had never been any. -/
theorem record_survives_flush :
    (∃ store' w', ((pathless.stores 0).flush : StateM World _).run pathless.machine
        = ((.ok 0, store'), w') ∧
      w'.tree.present w'.cwd (recordPath ⟨""⟩ "Greeter") = true) ∧
    ∃ store' w' i, ((roundabout.stores 0).flush : StateM World _).run roundabout.machine
        = ((.ok 0, store'), w') ∧
      ((store'.materialize (roundabout.shelves 0) (.named "Greeter") : StateM World _).run w').1.1
        = .error (.corrupt (recordPath ⟨"a/../w"⟩ "Greeter")) ∧
      WrapperStore.NeverHeld ⟨"a/../w"⟩ roundabout.machine recordless ∧
      ((store'.materialize (roundabout.shelves 0) (.named "Greeter") :
        StateM World _).run recordless).1.1 = .ok i := by
  constructor
  · rcases hrun : ((pathless.stores 0).flush : StateM World _).run pathless.machine
      with ⟨⟨removed, store'⟩, w'⟩
    have houtcome : (((pathless.stores 0).flush : StateM World _).run
          pathless.machine).1.1.toOption = some 0 ∧
        (((pathless.stores 0).flush : StateM World _).run pathless.machine).2.tree.present
          (((pathless.stores 0).flush : StateM World _).run pathless.machine).2.cwd
          (recordPath ⟨""⟩ "Greeter") = true := by
      decide +kernel
    rw [hrun] at houtcome
    obtain rfl := eq_ok_of_toOption houtcome.1
    exact ⟨store', w', rfl, houtcome.2⟩
  · rcases hrun : ((roundabout.stores 0).flush : StateM World _).run roundabout.machine
      with ⟨⟨removed, store'⟩, w'⟩
    have hremoved : (((roundabout.stores 0).flush : StateM World _).run
        roundabout.machine).1.1.toOption = some 0 := by decide +kernel
    have hfailure : WrapperStore.failure? (((WrapperStore.new (some ⟨"a/../w"⟩)).materialize
        (roundabout.shelves 0) (.named "Greeter") : StateM World _).run
          (((roundabout.stores 0).flush : StateM World _).run roundabout.machine).2).1.1
        = some (.corrupt (recordPath ⟨"a/../w"⟩ "Greeter")) := by decide +kernel
    have hmade : (((WrapperStore.new (some ⟨"a/../w"⟩)).materialize (roundabout.shelves 0)
        (.named "Greeter") : StateM World _).run recordless).1.1.toOption.isSome = true := by
      decide +kernel
    rw [hrun] at hremoved hfailure
    dsimp only at hfailure
    obtain rfl := eq_ok_of_toOption hremoved
    obtain rfl : store' = .new (some ⟨"a/../w"⟩) := WrapperStore.store_of_flush hrun
    obtain ⟨i, hi⟩ := Option.isSome_iff_exists.mp hmade
    exact ⟨_, w', i, rfl, WrapperStore.eq_error_of_failure? hfailure, neverHeld_recordless,
      eq_ok_of_toOption hi⟩

end Workshop

end Graft
