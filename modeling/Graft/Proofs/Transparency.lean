/-
Records that make no difference.

A name that is used for the first time gets a record that names the name itself. So as long as nobody
else writes to the directory of the records and the machine does what it is asked to do, a name stands
for itself with records as it does without any: what is made for it is what is made in memory. Flushing
changes nothing about this, since a record that is gone comes back as it was.

What carries the proof is what the machine holds at any time: where the record of a name in use belongs
there is nothing, or the record that names the name itself, and once the directory was made its files
stay in reach. `Workshop.answers_as_in_memory` compares a workshop that keeps records with one that does
not, job by job.
-/
import Graft.Proofs.Ancestors
import Graft.Proofs.Composition
import Graft.Proofs.Generation
import Graft.Proofs.WrittenOnce

set_option autoImplicit false

namespace Graft

open FileTree (Location Simple KeepsDirectories target)

/-! ## 1. Where records are -/

namespace WrapperStore

theorem plainChar_ne_slash (c : Char) : plainChar c ≠ '/' := by
  unfold plainChar
  split
  · rintro rfl
    simp_all
  · decide

/-- The file for a name is an entry of the directory, whatever the name. -/
theorem simple_fileName (name : String) : Simple (fileName name) := by
  refine Artifact.simple_json ?_
  rw [String.toList_append, String.toList_append, String.toList_ofList, List.mem_append,
    List.mem_append]
  rintro ((h | h) | h)
  · obtain ⟨c, -, hc⟩ := List.mem_map.mp h
    exact plainChar_ne_slash c hc
  · exact absurd h (by decide)
  · exact Artifact.slash_not_mem_shortHexOfText name h

/-- The name of a file begins like the name that it is for. -/
theorem head?_fileName {name : String} {c : Char} {rest : List Char} (h : name.toList = c :: rest) :
    (fileName name).toList.head? = some (plainChar c) := by
  rw [fileName, String.toList_append, String.toList_append, String.toList_append,
    String.toList_ofList, h, List.map_cons]
  rfl

theorem target_recordPath (cwd : Location) (directory : Path) (name : String) :
    target cwd (recordPath directory name) = target cwd directory ++ [fileName name] :=
  FileTree.target_entry cwd directory (simple_fileName name)

theorem target_recordPath_ne_nil (cwd : Location) (directory : Path) (name : String) :
    target cwd (recordPath directory name) ≠ [] := by
  rw [target_recordPath]
  exact List.append_ne_nil_of_right_ne_nil _ (List.cons_ne_nil _ _)

/-- Files in one place have one name. -/
theorem fileName_eq_of_target_eq {cwd : Location} {directory : Path} {name other : String}
    (h : target cwd (recordPath directory name) = target cwd (recordPath directory other)) :
    fileName name = fileName other := by
  rw [target_recordPath, target_recordPath] at h
  exact List.singleton_inj.mp (List.append_cancel_left h)

/-- The directory that the files are put into. It is the given one, perhaps written differently. -/
def home (directory : Path) : Path := (directory.entry "record").directory

theorem directory_recordPath (directory : Path) (name : String) :
    (recordPath directory name).directory = home directory :=
  Path.directory_entry_eq directory (simple_fileName name)
    ⟨by decide, by decide, by decide, by decide⟩

/-- What is written for a name when it is used first. -/
def ownRecord (name : String) (kind : Blueprint.Kind) : ByteArray :=
  (Json.toPrettyText (⟨name, name, kind⟩ : Wrapper)).toUTF8

end WrapperStore

open WrapperStore (fileName recordPath home ownRecord)

/-! ## 2. What the machine holds -/

/-- A new file can be made at a path once its directory is made. -/
def FileTree.Writable (tree : FileTree) (cwd : Location) (path : Path) : Prop :=
  (tree.createDirectories cwd path.directory).1 = .ok () ∧
    ∃ tree', (tree.createDirectories cwd path.directory).2.createFile cwd path .empty = .ok tree'

theorem FileTree.writable_iff {tree : FileTree} {cwd : Location} {path : Path} :
    tree.Writable cwd path ↔ (tree.createDirectories cwd path.directory).1 = .ok () ∧
      ((tree.createDirectories cwd path.directory).2.createFile cwd path .empty).isOk = true := by
  unfold Writable
  cases (tree.createDirectories cwd path.directory).2.createFile cwd path .empty <;>
    simp [Except.isOk, Except.toBool]

instance (tree : FileTree) (cwd : Location) (path : Path) : Decidable (tree.Writable cwd path) :=
  decidable_of_iff _ FileTree.writable_iff.symm

/-- The tree as it is when the directory for the records was made. -/
def World.settled (w : World) (directory : Path) : FileTree :=
  (w.tree.createDirectories w.cwd (home directory)).2

/-- A directory is free for the records of some names: it is absent, it is empty once it is made, the
machine does not refuse to make the files that have to be written, and each name has a file of its
own. -/
structure Suited (w : World) (directory : Path) (used written : String → Prop) : Prop where
  absent : w.tree.get? (target w.cwd directory) = none
  empty : ∀ name, used name →
    (w.settled directory).get? (target w.cwd (recordPath directory name)) = none
  writable : ∀ name, written name → w.tree.Writable w.cwd (recordPath directory name)
  distinct : ∀ name other, used name → used other →
    recordPath directory name = recordPath directory other → name = other

/-- What holds of a machine that was used for records only: either nothing has been done to its files,
or the directory for the records is there. In the files of the names in use are their own records. -/
structure World.Kept (start : World) (directory : Path) (used written : String → Prop) (w : World) :
    Prop where
  cwd : w.cwd = start.cwd
  directories : w.tree = start.tree ∨ KeepsDirectories (start.settled directory) w.tree
  own : ∀ name, used name → w.tree.get? (target start.cwd (recordPath directory name)) = none ∨
    (written name ∧ ∃ kind, w.tree.get? (target start.cwd (recordPath directory name))
      = some (.file (ownRecord name kind)))

namespace Suited

variable {start w : World} {directory : Path} {used written : String → Prop} {name : String}

/-- What is known of the file for a name once the directory is made. -/
theorem settled_of_writable (h : start.tree.Writable start.cwd (recordPath directory name)) :
    start.tree.createDirectories start.cwd (home directory) = (.ok (), start.settled directory) ∧
      (∃ staged, (start.settled directory).stage start.cwd (recordPath directory name)
        = .ok staged) ∧
      (start.settled directory).locate start.cwd (recordPath directory name)
        = .ok (target start.cwd (recordPath directory name)) ∧
      (start.settled directory).get? (target start.cwd (recordPath directory name)) = none := by
  obtain ⟨hmade, tree, hfile⟩ := h
  rw [WrapperStore.directory_recordPath] at hmade hfile
  change (start.settled directory).createFile _ _ _ = _ at hfile
  obtain ⟨hstage, hlocate⟩ := FileTree.located_of_createFile hfile
  refine ⟨Prod.ext hmade ?_, hstage, hlocate, (FileTree.createFile_eq_ok hfile).1⟩
  rw [World.settled]

/-- Where every file can be made, the directory is empty once it is made. -/
theorem of_writable (habsent : start.tree.get? (target start.cwd directory) = none)
    (hwritable : ∀ name, used name → start.tree.Writable start.cwd (recordPath directory name))
    (hdistinct : ∀ name other, used name → used other →
      recordPath directory name = recordPath directory other → name = other)
    (hwritten : ∀ name, written name → used name) : Suited start directory used written where
  absent := habsent
  empty name hname := (settled_of_writable (hwritable name hname)).2.2.2
  writable name hname := hwritable name (hwritten name hname)
  distinct := hdistinct

/-- At the start there is no record. -/
theorem get?_start (h : Suited start directory used written) (hname : used name) :
    start.tree.get? (target start.cwd (recordPath directory name)) = none := by
  have hfree := h.empty name hname
  have hcontent := FileTree.content?_createDirectories start.tree start.cwd (home directory)
    (target start.cwd (recordPath directory name))
  have hkeeps := FileTree.keepsDirectories_createDirectories start.tree start.cwd (home directory)
    (target start.cwd (recordPath directory name))
  change (start.settled directory).content? _ = _ at hcontent
  change _ → (start.settled directory).get? _ = _ at hkeeps
  rw [hfree] at hkeeps
  rw [FileTree.content?, hfree] at hcontent
  -- Neither a directory nor a file can have been there.
  cases hget : start.tree.get? (target start.cwd (recordPath directory name)) with
  | none => rfl
  | some entry =>
    cases entry with
    | directory => exact absurd (hkeeps hget) (by simp)
    | file content =>
      rw [FileTree.content?_eq_some_iff.mpr hget] at hcontent
      exact absurd hcontent (by simp)

theorem kept_start (h : Suited start directory used written) :
    start.Kept directory used written start where
  cwd := rfl
  directories := .inl rfl
  own _ hname := .inl (h.get?_start hname)

end Suited

/-! ## 3. A request -/

namespace WrapperStore

variable {w : World} {path : Path}

/-- What is there is left alone. -/
theorem run_ensureWritten_of_present (blueprints : Blueprints) (name : String)
    (h : w.tree.present w.cwd path = true) :
    (ensureWritten blueprints name path : ExceptT WrapperError (StateM World) Unit).run.run w
      = (.ok (), w) := by
  have hlook : (ExceptT.lift (Host.present path) :
      ExceptT WrapperError (StateM World) Bool).run.run w = (.ok true, w) := by
    rw [← h, run_lift]
    rfl
  rw [ensureWritten, run_bind_of_ok hlook]
  rfl

/-- Where nothing is, it is the blueprint of the name that counts. -/
theorem run_ensureWritten_of_absent (blueprints : Blueprints) (name : String)
    (h : w.tree.present w.cwd path = false) :
    (ensureWritten blueprints name path : ExceptT WrapperError (StateM World) Unit).run.run w
      = match blueprints.kind? name with
        | some kind => (writeOnce path ⟨name, name, kind⟩ :
            ExceptT WrapperError (StateM World) Unit).run.run w
        | none => (.error (.unresolved name), w) := by
  have hlook : (ExceptT.lift (Host.present path) :
      ExceptT WrapperError (StateM World) Bool).run.run w = (.ok false, w) := by
    rw [← h, run_lift]
    rfl
  rw [ensureWritten, run_bind_of_ok hlook]
  cases blueprints.kind? name <;> rfl

end WrapperStore

namespace World.Kept

variable {start w w' : World} {directory : Path} {used written : String → Prop} {name : String}

/-- A record that is there can be read. -/
theorem readBytes (h : start.Kept directory used written w)
    (hsuited : Suited start directory used written) (hname : used name) (hwritten : written name)
    {content : ByteArray}
    (hfile : w.tree.get? (target start.cwd (recordPath directory name)) = some (.file content)) :
    w.tree.readBytes w.cwd (recordPath directory name) = .ok content := by
  obtain ⟨-, -, hlocate, -⟩ := Suited.settled_of_writable (hsuited.writable name hwritten)
  rw [h.cwd]
  rcases h.directories with htree | hkeeps
  · -- As long as nothing has been done, there is no record.
    rw [htree, hsuited.get?_start hname] at hfile
    exact absurd hfile (by simp)
  · exact FileTree.readBytes_eq_ok_iff.mpr
      ⟨hkeeps.locate hlocate, FileTree.content?_eq_some_iff.mpr hfile⟩

/-- The directory for the records can be made, or is there; nothing becomes of the records. -/
theorem createDirectories (h : start.Kept directory used written w)
    (hsuited : Suited start directory used written) (hwritten : written name) :
    ∃ tree, w.tree.createDirectories w.cwd (home directory) = (.ok (), tree) ∧
      KeepsDirectories (start.settled directory) tree ∧
      ∀ other, used other → tree.get? (target start.cwd (recordPath directory other))
        = w.tree.get? (target start.cwd (recordPath directory other)) := by
  obtain ⟨hmade, -⟩ := Suited.settled_of_writable (hsuited.writable name hwritten)
  rw [h.cwd]
  rcases h.directories with htree | hkeeps
  · refine ⟨_, htree ▸ hmade, .refl _, fun other hother => ?_⟩
    -- Making the directory could put another one in a record's place, as in `d/record.json/..`.
    rw [hsuited.empty other hother, htree, hsuited.get?_start hother]
  · exact ⟨w.tree, FileTree.createDirectories_again hmade hkeeps, hkeeps, fun _ _ => rfl⟩

/-- Where no record is, one can be written, and it can be read then. -/
theorem writeOnce (h : start.Kept directory used written w)
    (hsuited : Suited start directory used written) (hname : used name) (hwritten : written name)
    (hfree : w.tree.get? (target start.cwd (recordPath directory name)) = none)
    (kind : Blueprint.Kind) :
    ∃ w', (WrapperStore.writeOnce (recordPath directory name) ⟨name, name, kind⟩ :
        ExceptT WrapperError (StateM World) Unit).run.run w = (.ok (), w') ∧
      start.Kept directory used written w' ∧
      w'.tree.get? (target start.cwd (recordPath directory name))
        = some (.file (ownRecord name kind)) := by
  obtain ⟨tree, hmade, hkeeps, hrecords⟩ := h.createDirectories hsuited hwritten
  obtain ⟨-, ⟨staged, hstage⟩, hlocate, -⟩ :=
    Suited.settled_of_writable (hsuited.writable name hwritten)
  rw [← hrecords name hname] at hfree
  -- The directory, the file, and the report of it.
  have hdirectory : (WrapperStore.guardIo (recordPath directory name)
      (Host.createDirectories (recordPath directory name).directory) :
        ExceptT WrapperError (StateM World) Unit).run.run w = (.ok (), { w with tree := tree }) := by
    apply run_mapError_of_ok
    rw [run_createDirectories, WrapperStore.directory_recordPath, hmade]
  have hfile : (Host.createFile (recordPath directory name) (ownRecord name kind) :
      StateM World _).run { w with tree := tree } = (.ok (), { w with
        tree := tree.insert (target start.cwd (recordPath directory name))
          (.file (ownRecord name kind)) }) := by
    rw [run_createFile]
    refine run_change_of_ok (w := { w with tree := tree }) ?_
    show tree.createFile w.cwd _ _ = _
    rw [h.cwd]
    exact FileTree.createFile_of_located (hkeeps.locate hstage) (hkeeps.locate hlocate) hfree _
  refine ⟨{ w with
    tree := tree.insert (target start.cwd (recordPath directory name)) (.file (ownRecord name kind))
    events := ⟨.debug, "wrote unit wrapper",
      [("unit", name), ("path", (recordPath directory name).text)]⟩ :: w.events }, ?_, ?_, ?_⟩
  · unfold WrapperStore.writeOnce
    rw [ownRecord] at hfile ⊢
    rw [run_bind_of_ok hdirectory, run_bind_of_ok (by rw [run_lift, hfile])]
    rfl
  · refine ⟨h.cwd, .inr (hkeeps.trans (FileTree.keepsDirectories_insert (by simp [hfree]))),
      fun other hother => ?_⟩
    show (tree.insert _ _).get? _ = none ∨ (written other ∧ ∃ kind, (tree.insert _ _).get? _ = _)
    rw [FileTree.get?_insert, if_neg (WrapperStore.target_recordPath_ne_nil _ _ _)]
    split
    · next hplace =>
      -- Files in one place are files for one name.
      have hfile := WrapperStore.fileName_eq_of_target_eq hplace
      obtain rfl := hsuited.distinct other name hother hname (congrArg (Path.entry directory) hfile)
      exact .inr ⟨hwritten, kind, rfl⟩
    · rw [hrecords other hother]
      exact h.own other hother
  · show (tree.insert _ _).get? _ = _
    rw [FileTree.get?_insert, if_neg (WrapperStore.target_recordPath_ne_nil _ _ _), if_pos rfl]

/-- A record that was written for a name is taken for the record of the name. -/
theorem read (h : start.Kept directory used written w)
    (hsuited : Suited start directory used written) (hname : used name) (hwritten : written name)
    {kind : Blueprint.Kind}
    (hfile : w.tree.get? (target start.cwd (recordPath directory name))
      = some (.file (ownRecord name kind))) :
    (WrapperStore.read name (recordPath directory name) :
        ExceptT WrapperError (StateM World) Wrapper).run.run w = (.ok ⟨name, name, kind⟩, w) := by
  have hbytes : (WrapperStore.guardIo (recordPath directory name)
      (Host.readBytes (recordPath directory name)) :
        ExceptT WrapperError (StateM World) ByteArray).run.run w = (.ok (ownRecord name kind), w) := by
    apply run_mapError_of_ok
    show (w.tree.readBytes w.cwd (recordPath directory name), w) = _
    rw [h.readBytes hsuited hname hwritten hfile]
  have hparse : (Json.ofBytes? (ownRecord name kind) : Option Wrapper) = some ⟨name, name, kind⟩ :=
    WrapperStore.ofBytes?_toPrettyText _
  rw [WrapperStore.read, run_bind_of_ok hbytes, hparse]
  simp only [if_true]
  rfl

/-- **What loading comes to.** The record of a name names the name itself, and there is one, or one is
written, unless the name has no blueprint. -/
theorem load (h : start.Kept directory used written w)
    (hsuited : Suited start directory used written) (hname : used name) (blueprints : Blueprints)
    (hneeds : blueprints.kind? name ≠ none → written name) :
    (∃ kind w', (WrapperStore.load blueprints name (recordPath directory name) :
        ExceptT WrapperError (StateM World) Wrapper).run.run w = (.ok ⟨name, name, kind⟩, w') ∧
      start.Kept directory used written w') ∨
    (blueprints.kind? name = none ∧
      (WrapperStore.load blueprints name (recordPath directory name) :
        ExceptT WrapperError (StateM World) Wrapper).run.run w
          = (.error (.unresolved name), w)) := by
  rcases h.own name hname with hfree | ⟨hwritten, kind, hfile⟩
  · have habsent : w.tree.present w.cwd (recordPath directory name) = false := by
      apply FileTree.present_of_get?_eq_none
      rwa [h.cwd]
    have hensure := WrapperStore.run_ensureWritten_of_absent blueprints name habsent
    cases hkind : blueprints.kind? name with
    | none =>
      rw [hkind] at hensure
      exact .inr ⟨rfl, by rw [WrapperStore.load, run_bind_of_error hensure]⟩
    | some kind =>
      rw [hkind] at hensure
      have hwritten := hneeds (by simp [hkind])
      obtain ⟨w', hwrite, hkept, hfile⟩ := h.writeOnce hsuited hname hwritten hfree kind
      refine .inl ⟨kind, w', ?_, hkept⟩
      rw [WrapperStore.load, run_bind_of_ok (hensure.trans hwrite)]
      exact hkept.read hsuited hname hwritten hfile
  · have hpresent := FileTree.present_of_readBytes (h.readBytes hsuited hname hwritten hfile)
    refine .inl ⟨kind, w, ?_, h⟩
    rw [WrapperStore.load,
      run_bind_of_ok (WrapperStore.run_ensureWritten_of_present blueprints name hpresent)]
    exact h.read hsuited hname hwritten hfile

end World.Kept

namespace WrapperStore

variable {start w : World} {directory : Path} {used written : String → Prop} {store : WrapperStore}
variable {unit : BundleRef}

/-- A store over the directory has read own records only. -/
def Honest (directory : Path) (used : String → Prop) (store : WrapperStore) : Prop :=
  store.directory = some directory ∧ ∀ name, used name → ∀ wrapper,
    store.loaded.get? (recordPath directory name) = some wrapper → wrapper.composes = name

theorem honest_new (directory : Path) (used : String → Prop) :
    Honest directory used (new (some directory)) :=
  ⟨rfl, fun _ _ _ h => absurd h (by simp [new, OrderedMap.get?_empty])⟩

/-- **What a request comes to.** With records of one's own it comes to what it comes to in memory. -/
theorem materialize_of_kept (hkept : start.Kept directory used written w)
    (hsuited : Suited start directory used written) (hstore : store.Honest directory used)
    (hunit : ∀ name, unit = .named name → used name) (blueprints : Blueprints)
    (hneeds : ∀ name, unit = .named name → blueprints.kind? name ≠ none → written name) :
    ∃ store' w', (store.materialize blueprints unit : StateM World _).run w
        = (((blueprints.answer unit).1, store', (blueprints.answer unit).2), w') ∧
      store'.Honest directory used ∧ start.Kept directory used written w' := by
  obtain ⟨hdirectory, hown⟩ := hstore
  cases unit with
  | live i => exact ⟨store, w, rfl, ⟨hdirectory, hown⟩, hkept⟩
  | named name =>
    have hname := hunit name rfl
    have hpath := path?_of_directory hdirectory name
    cases hloaded : store.loaded.get? (recordPath directory name) with
    | some wrapper =>
      refine ⟨store, w, ?_, ⟨hdirectory, hown⟩, hkept⟩
      rw [run_materialize_of_loaded hpath hloaded, hown name hname wrapper hloaded]
      rfl
    | none =>
      rcases hkept.load hsuited hname blueprints (hneeds name rfl) with
        ⟨kind, w', hload, hkept'⟩ | ⟨hkind, hload⟩
      · refine ⟨_, w', run_materialize_of_resolve (run_resolve_of_load hpath hloaded hload),
          ⟨hdirectory, fun other hother wrapper hwrapper => ?_⟩, hkept'⟩
        replace hwrapper : (store.loaded.insert (recordPath directory name)
          ⟨name, name, kind⟩).get? (recordPath directory other) = some wrapper := hwrapper
        rw [OrderedMap.get?_insert] at hwrapper
        split at hwrapper
        · next hpath =>
          -- Another name with the same path would be met with this record.
          rw [← Option.some.inj hwrapper]
          exact (hsuited.distinct other name hother hname hpath).symm
        · exact hown other hother wrapper hwrapper
      · refine ⟨store, w, ?_, ⟨hdirectory, hown⟩, hkept⟩
        rw [run_materialize_of_resolve_error (run_resolve_of_load_error hpath hloaded hload),
          Blueprints.answer, Blueprints.produce_of_kind?_eq_none hkind]

end WrapperStore

/-! ## 4. Flushing -/

namespace WrapperStore

section

variable {σ : Type} [Host (StateM σ)] {R : σ → σ → Prop}

/-- A relation that everything respects that is done to flush records. -/
structure Erasing (R : σ → σ → Prop) : Prop where
  composable : Composable R
  list : ∀ path, Keeps R (Host.list path : StateM σ _)
  removeFile : ∀ path, Keeps R (Host.removeFile path : StateM σ _)
  log : ∀ event, Keeps R (Host.log event : StateM σ _)

theorem Erasing.removeRecords (h : Erasing R) (directory : Path) (names : List String) :
    Keeps R (removeRecords directory names : ExceptT WrapperError (StateM σ) Nat).run := by
  have hR := h.composable
  induction names with
  | nil => exact Keeps.pure hR _
  | cons name rest ih =>
    rw [WrapperStore.removeRecords]
    split
    · refine Keeps.bindExcept hR (Keeps.mapError hR _ (h.removeFile _)) fun _ => ?_
      exact Keeps.bindExcept hR ih fun _ => Keeps.pure hR _
    · exact ih

theorem Erasing.flushDirectory (h : Erasing R) (directory : Path) :
    Keeps R (flushDirectory directory : ExceptT WrapperError (StateM σ) Nat).run := by
  have hR := h.composable
  refine Keeps.bindExcept hR (Keeps.lift hR (h.list directory)) fun listed => ?_
  split
  · exact Keeps.pure hR _
  · exact Keeps.pure hR _
  · refine Keeps.bindExcept hR (h.removeRecords directory _) fun _ => ?_
    exact Keeps.bindExcept hR (Keeps.lift hR (h.log _)) fun _ => Keeps.pure hR _

end

/-- Some files are gone, and nothing else is different. -/
def Erased (w w' : World) : Prop :=
  w'.cwd = w.cwd ∧ KeepsDirectories w.tree w'.tree ∧
    ∀ location, w'.tree.get? location = w.tree.get? location ∨ w'.tree.get? location = none

theorem erasing_erased : Erasing Erased where
  composable := by
    refine ⟨fun w => ⟨rfl, .refl _, fun _ => .inl rfl⟩, ?_⟩
    rintro w w' w'' ⟨hcwd, hkeeps, hget⟩ ⟨hcwd', hkeeps', hget'⟩
    refine ⟨hcwd'.trans hcwd, hkeeps.trans hkeeps', fun location => ?_⟩
    rcases hget' location with hsame | hgone
    · rw [hsame]
      exact hget location
    · exact .inr hgone
  list _ _ := ⟨rfl, .refl _, fun _ => .inl rfl⟩
  removeFile path w := by
    rw [World.run_removeFile]
    rcases hrun : (World.change fun tree => tree.removeFile w.cwd path).run w with ⟨result, w'⟩
    rcases World.change_cases hrun with ⟨error, -, rfl⟩ | ⟨tree, htree, -, rfl⟩
    · exact ⟨rfl, .refl _, fun _ => .inl rfl⟩
    · refine ⟨rfl, FileTree.keepsDirectories_removeFile htree, fun location => ?_⟩
      obtain ⟨-, rfl⟩ := FileTree.removeFile_eq_ok htree
      show (w.tree.erase _).get? location = _ ∨ (w.tree.erase _).get? location = none
      rw [FileTree.get?_erase]
      split
      · next hroot => exact .inl (by rw [hroot, FileTree.get?_nil])
      · split
        · exact .inr rfl
        · exact .inl rfl
  log _ _ := ⟨rfl, .refl _, fun _ => .inl rfl⟩

variable {start w : World} {directory : Path} {used written : String → Prop} {store : WrapperStore}

/-- Before the directory is made there is nothing to flush. -/
theorem run_flushDirectory_of_absent (h : w.tree.get? (target w.cwd directory) = none) :
    ((flushDirectory directory : ExceptT WrapperError (StateM World) Nat).run.run w).2 = w := by
  obtain ⟨error, hlist⟩ : ∃ error, w.tree.list w.cwd directory = .error error := by
    unfold FileTree.list
    cases hlocate : w.tree.locate w.cwd directory with
    | error error => exact ⟨error, rfl⟩
    | ok found =>
      rw [← FileTree.eq_target_of_locate hlocate] at h
      simp only [bind, Except.bind, h]
      exact ⟨_, rfl⟩
  have hlook : (ExceptT.lift (Host.list directory) :
      ExceptT WrapperError (StateM World) (Except FileError (List String))).run.run w
        = (.ok (.error error), w) := by
    rw [← hlist, run_lift]
    rfl
  rw [flushDirectory, run_bind_of_ok hlook]
  cases error <;> rfl

/-- **What flushing comes to.** Records are gone, and none is changed. -/
theorem flush_of_kept (hkept : start.Kept directory used written w)
    (hsuited : Suited start directory used written) (hstore : store.Honest directory used) :
    ∃ removed w', (store.flush : StateM World _).run w
        = ((removed, new (some directory)), w') ∧ start.Kept directory used written w' := by
  have hrun : (store.flush : StateM World _).run w
      = ((((flushDirectory directory : ExceptT WrapperError (StateM World) Nat).run.run w).1,
          new (some directory)),
        ((flushDirectory directory : ExceptT WrapperError (StateM World) Nat).run.run w).2) := by
    rw [flush, hstore.1]
    rfl
  refine ⟨_, _, hrun, ?_⟩
  rcases hkept.directories with htree | hkeeps
  · rw [run_flushDirectory_of_absent (by rw [htree, hkept.cwd]; exact hsuited.absent)]
    exact hkept
  · obtain ⟨hcwd, hkeeps', hget⟩ := erasing_erased.flushDirectory directory w
    refine ⟨hcwd.trans hkept.cwd, .inr (hkeeps.trans hkeeps'), fun name hname => ?_⟩
    -- A record that is gone can be written again, so either case is one of a kept machine.
    rcases hget (target start.cwd (recordPath directory name)) with hsame | hgone
    · rw [hsame]
      exact hkept.own name hname
    · exact .inl hgone

end WrapperStore

/-! ## 5. Side by side -/

namespace Workshop

variable {start : World} {directory : Path} {used written : String → Prop}
variable {disk memory : Workshop World}

/-- A workshop that keeps records and one that does not, at the same point of the same jobs. -/
structure Alike (start : World) (directory : Path) (used written : String → Prop)
    (disk memory : Workshop World) : Prop where
  stores : ∀ store, (disk.stores store).Honest directory used
  machine : start.Kept directory used written disk.machine
  unkept : ∀ store, memory.stores store = .new none
  shelves : disk.shelves = memory.shelves

/-- In memory a request comes to what the blueprints say. -/
theorem run_materialize_memory (blueprints : Blueprints) (unit : BundleRef) (w : World) :
    ((WrapperStore.new none).materialize blueprints unit : StateM World _).run w
      = (((blueprints.answer unit).1, .new none, (blueprints.answer unit).2), w) := by
  cases unit with
  | live i => rfl
  | named name => exact WrapperStore.run_materialize_of_path?_eq_none rfl

/-- What one job does to two such workshops: they answer alike, and the answer does not tell of any
record. -/
theorem Alike.step (h : Alike start directory used written disk memory)
    (hsuited : Suited start directory used written) {job : Job World}
    (hused : ∀ store shelf name, job = .materialize store shelf (.named name) → used name)
    (hneeds : ∀ store shelf name, job = .materialize store shelf (.named name) →
      (memory.shelves shelf).kind? name ≠ none → written name)
    (hothers : ∀ change, job ≠ .others change) :
    (disk.step job).1 = (memory.step job).1 ∧
      (∀ error, (disk.step job).1 = some (.error error) → ∃ name, error = .unresolved name) ∧
      Alike start directory used written (disk.step job).2 (memory.step job).2 := by
  obtain ⟨hstores, hmachine, hunkept, hshelves⟩ := h
  have hupdate {kept : WrapperStore} (hkept : kept.Honest directory used) (store other : Nat) :
      (exchange disk.stores store kept other).Honest directory used := by
    rw [exchange]
    split
    · exact hkept
    · exact hstores other
  have hforget (store other : Nat) :
      exchange memory.stores store (WrapperStore.new none) other = .new none := by
    rw [exchange]
    split
    · rfl
    · exact hunkept other
  cases job with
  | define shelf name kind make =>
    refine ⟨rfl, fun error herror => absurd herror (by simp [Workshop.step]), hstores, hmachine,
      hunkept, ?_⟩
    simp only [Workshop.step, hshelves]
  | others change => exact absurd rfl (hothers change)
  | materialize store shelf unit =>
    have hunit (name : String) (hname : unit = .named name) : used name :=
      hused store shelf name (by rw [hname])
    obtain ⟨store', w', hrun, hstore', hkept⟩ :=
      WrapperStore.materialize_of_kept hmachine hsuited (hstores store) hunit (disk.shelves shelf)
        fun name hname hkind => hneeds store shelf name (by rw [hname]) (hshelves ▸ hkind)
    have hrun' := run_materialize_memory (memory.shelves shelf) unit memory.machine
    rw [← hunkept store] at hrun'
    rw [step_materialize hrun, step_materialize hrun', hshelves]
    refine ⟨rfl, fun error herror => ?_, hupdate hstore' store, hkept, ?_, rfl⟩
    · obtain ⟨name, -, hname⟩ := Blueprints.unresolved_of_answer (Option.some.inj herror)
      exact ⟨name, hname⟩
    · rw [hunkept store]
      exact hforget store
  | flush store =>
    obtain ⟨removed, w', hrun, hkept⟩ :=
      WrapperStore.flush_of_kept hmachine hsuited (hstores store)
    have hrun' : ((memory.stores store).flush : StateM World _).run memory.machine
        = ((.ok 0, .new none), memory.machine) := by
      rw [hunkept store]
      rfl
    rw [step_flush hrun, step_flush hrun']
    exact ⟨rfl, fun error herror => absurd herror (by simp),
      hupdate (WrapperStore.honest_new directory used) store, hkept, hforget store, hshelves⟩

/-- Two such workshops stay alike. -/
theorem Alike.after (h : Alike start directory used written disk memory)
    (hsuited : Suited start directory used written) (jobs : List (Job World))
    (hused : ∀ store shelf name, .materialize store shelf (.named name) ∈ jobs → used name)
    (hneeds : ∀ before store shelf name rest,
      jobs = before ++ .materialize store shelf (.named name) :: rest →
        ((memory.after before).shelves shelf).kind? name ≠ none → written name)
    (hothers : ∀ change, .others change ∉ jobs) :
    disk.answers jobs = memory.answers jobs ∧
      (∀ error, some (.error error) ∈ disk.answers jobs → ∃ name, error = .unresolved name) ∧
      Alike start directory used written (disk.after jobs) (memory.after jobs) := by
  induction jobs generalizing disk memory with
  | nil => exact ⟨rfl, fun _ hin => absurd hin List.not_mem_nil, h⟩
  | cons job rest ih =>
    -- What the rest needs was needed all along, one job later.
    obtain ⟨hanswer, herror, hnext⟩ := h.step hsuited
      (fun store shelf name heq => hused store shelf name (heq ▸ List.mem_cons_self))
      (fun store shelf name heq => hneeds [] store shelf name rest (heq ▸ rfl))
      (fun change heq => hothers change (heq ▸ List.mem_cons_self))
    obtain ⟨hanswers, herrors, hlast⟩ := ih hnext
      (fun store shelf name hin => hused store shelf name (List.mem_cons_of_mem _ hin))
      (fun before store shelf name last heq =>
        hneeds (job :: before) store shelf name last (heq ▸ rfl))
      (fun change hin => hothers change (List.mem_cons_of_mem _ hin))
    refine ⟨by rw [answers, answers, hanswer, hanswers], fun error hin => ?_, hlast⟩
    rcases List.mem_cons.mp hin with heq | hin
    · exact herror error heq.symm
    · exact herrors error hin

/-- A name is requested in the course of some jobs. -/
def Uses (jobs : List (Job World)) (name : String) : Prop :=
  ∃ store shelf, Job.materialize store shelf (.named name) ∈ jobs

/-- A name is requested at a time when it has a blueprint, so there has to be a record of it. -/
def Needs (memory : Workshop World) (jobs : List (Job World)) (name : String) : Prop :=
  ∃ before store shelf rest, jobs = before ++ .materialize store shelf (.named name) :: rest ∧
    ((memory.after before).shelves shelf).kind? name ≠ none

theorem Needs.uses {jobs : List (Job World)} {name : String} (h : Needs memory jobs name) :
    Uses jobs name := by
  obtain ⟨before, store, shelf, rest, rfl, -⟩ := h
  exact ⟨store, shelf, List.mem_append_right _ List.mem_cons_self⟩

/-- **Records make no difference.** Any number of stores keep records in one directory that is absent at
first. Nobody else does anything to the machine, the machine does not refuse to make the files of the
names that there are blueprints of, and no two of the names in use share a file. Then whatever is
defined, requested and flushed in which order, every request is answered as by stores that keep nothing,
and leaves the same blueprints behind: an instance is itself, and of a name one instance is made, or
there is no blueprint of that name. -/
theorem answers_as_in_memory (w : World) (directory : Path) (shelves : Nat → Blueprints)
    (jobs : List (Job World)) (hothers : ∀ change, .others change ∉ jobs)
    (hsuited : Suited w directory (Uses jobs) (Needs ⟨fun _ => .new none, shelves, w⟩ jobs)) :
    let disk : Workshop World := ⟨fun _ => .new (some directory), shelves, w⟩
    let memory : Workshop World := ⟨fun _ => .new none, shelves, w⟩
    disk.answers jobs = memory.answers jobs ∧
      (disk.after jobs).shelves = (memory.after jobs).shelves ∧
      (∀ before store shelf unit rest, jobs = before ++ .materialize store shelf unit :: rest →
        let blueprints := (disk.after before).shelves shelf
        ∃ kept machine, (((disk.after before).stores store).materialize blueprints unit :
            StateM World _).run (disk.after before).machine
          = (((blueprints.answer unit).1, kept, (blueprints.answer unit).2), machine)) ∧
      ∀ error, some (.error error) ∈ disk.answers jobs → ∃ name, error = .unresolved name := by
  intro disk memory
  have hstart : Alike w directory (Uses jobs) (Needs memory jobs) disk memory :=
    ⟨fun _ => WrapperStore.honest_new directory _, hsuited.kept_start, fun _ => rfl, rfl⟩
  obtain ⟨hanswers, herrors, hend⟩ :=
    hstart.after hsuited jobs (fun store shelf name hin => ⟨store, shelf, hin⟩)
      (fun before store shelf name rest heq hkind => ⟨before, store, shelf, rest, heq, hkind⟩)
      hothers
  refine ⟨hanswers, hend.shelves, fun before store shelf unit rest hjobs => ?_, herrors⟩
  subst hjobs
  -- The answer to one job is told from the blueprints at its time, so both are compared up to there.
  obtain ⟨-, -, hbefore⟩ := hstart.after hsuited before
    (fun store shelf name hin => ⟨store, shelf, List.mem_append_left _ hin⟩)
    (fun earlier store' shelf' name last heq hkind =>
      ⟨earlier, store', shelf', last ++ .materialize store shelf unit :: rest, by simp [heq],
        hkind⟩)
    (fun change hin => hothers change (List.mem_append_left _ hin))
  have hunit (name : String) (hname : unit = .named name) :
      Uses (before ++ .materialize store shelf unit :: rest) name := by
    refine ⟨store, shelf, List.mem_append_right _ ?_⟩
    rw [hname]
    exact List.mem_cons_self
  obtain ⟨kept, machine, hrun, -⟩ := WrapperStore.materialize_of_kept hbefore.machine hsuited
    (hbefore.stores store) hunit ((disk.after before).shelves shelf)
    fun name hname hkind => ⟨before, store, shelf, rest, by rw [hname], hbefore.shelves ▸ hkind⟩
  exact ⟨kept, machine, hrun⟩

/-- A greeter is defined and requested by two stores, one of which was flushed in between; then
something is requested that is not defined. -/
def visits : List (Job World) :=
  [.define 0 "Greeter" .composable fun _ => Registry.oneOperation "Greeter" "hello",
    .materialize 0 0 (.named "Greeter"), .flush 0, .materialize 1 0 (.named "Greeter"),
    .materialize 0 0 (.named "Panel")]

theorem uses_visits {name : String} (h : Uses visits name) : name = "Greeter" ∨ name = "Panel" := by
  obtain ⟨store, shelf, hin⟩ := h
  simp only [visits, List.mem_cons, Job.materialize.injEq, BundleRef.named.injEq, reduceCtorEq,
    List.not_mem_nil, false_or, or_false] at hin
  tauto

/-- A machine without any files will do. Two greeters are made, and no panel. -/
theorem answers_as_in_memory_visits :
    ∃ first second, (Workshop.mk (fun _ => .new (some ⟨"w"⟩)) (fun _ => .empty)
        (World.fresh [] ⟨"tmp"⟩)).answers visits
      = [none, some (.ok first), none, some (.ok second), some (.error (.unresolved "Panel"))] ∧
      first.owner = ⟨.made 0 1, "Greeter"⟩ ∧ second.owner = ⟨.made 0 2, "Greeter"⟩ := by
  have hwritable (name : String) (hname : name = "Greeter" ∨ name = "Panel") :
      (World.fresh [] ⟨"tmp"⟩).tree.Writable [] (recordPath ⟨"w"⟩ name) := by
    rcases hname with rfl | rfl
    · decide +kernel
    · decide +kernel
  have hdistinct (name other : String) (hname : Uses visits name) (hother : Uses visits other)
      (h : recordPath ⟨"w"⟩ name = recordPath ⟨"w"⟩ other) : name = other := by
    have hne : fileName "Greeter" ≠ fileName "Panel" := by
      intro heq
      have hgreeter : (fileName "Greeter").toList.head? = some 'G' :=
        WrapperStore.head?_fileName (c := 'G') rfl
      have hpanel : (fileName "Panel").toList.head? = some 'P' :=
        WrapperStore.head?_fileName (c := 'P') rfl
      rw [heq, hpanel] at hgreeter
      exact absurd hgreeter (by decide)
    have hfile := WrapperStore.fileName_eq_of_target_eq (congrArg (target []) h)
    rcases uses_visits hname with rfl | rfl <;> rcases uses_visits hother with rfl | rfl
    · rfl
    · exact absurd hfile hne
    · exact absurd hfile.symm hne
    · rfl
  obtain ⟨hanswers, -⟩ := answers_as_in_memory (World.fresh [] ⟨"tmp"⟩) ⟨"w"⟩ (fun _ => .empty)
    visits (by simp [visits])
    (.of_writable rfl (fun name hname => hwritable name (uses_visits hname)) hdistinct
      fun _ => Needs.uses)
  rw [hanswers]
  exact ⟨_, _, rfl, rfl, rfl⟩

end Workshop

end Graft
