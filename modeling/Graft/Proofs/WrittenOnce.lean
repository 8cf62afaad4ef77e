/-
Records are written once and read once.

A record comes up where nothing is, by an operation that takes nobody's place, and no request writes
to a file that is there. So whatever the file for a name holds, sound or not, stays as it is, however
many stores make their requests of it and in whichever order. A store on its part looks at a file until
it has the record of the name, and never again before it is flushed: what the file has become is of no
concern to it.

The machine is arbitrary, and every operation may fail at any time. `Files.WrittenOnce` says what holds
of all stores on it, and `WrapperStore.written_once` proves it of every machine whose operations go no
further than their paths.
-/
import Graft.Proofs.FailedRegistration
import Graft.Proofs.Precise
import Graft.Proofs.Workshop

set_option autoImplicit false

namespace Graft

open FileTree (Location)

/-! ## 1. Relations that a request respects -/

namespace WrapperStore

variable {σ : Type} [Host (StateM σ)] {R : σ → σ → Prop}
variable {store : WrapperStore} {blueprints : Blueprints} {name : String}

/-- A relation that everything respects that is done to look for a record. -/
structure Looking (R : σ → σ → Prop) : Prop where
  composable : Composable R
  present : ∀ path, Keeps R (Host.present path : StateM σ _)
  readBytes : ∀ path, Keeps R (Host.readBytes path : StateM σ _)

/-- A relation that everything respects that is done to have a record. -/
structure Loading (R : σ → σ → Prop) : Prop extends Looking R where
  createDirectories : ∀ path, Keeps R (Host.createDirectories path : StateM σ _)
  createFile : ∀ path content, Keeps R (Host.createFile path content : StateM σ _)
  log : ∀ event, Keeps R (Host.log event : StateM σ _)

theorem Loading.writeOnce (h : Loading R) (path : Path) (wrapper : Wrapper) :
    Keeps R (writeOnce path wrapper : ExceptT WrapperError (StateM σ) _).run := by
  have hR := h.composable
  refine Keeps.bindExcept hR (Keeps.mapError hR _ (h.createDirectories _)) fun _ => ?_
  refine Keeps.bindExcept hR (Keeps.lift hR (h.createFile _ _)) fun written => ?_
  split
  · exact Keeps.lift hR (h.log _)
  · exact Keeps.lift hR (h.log _)
  · exact Keeps.pure hR _

theorem Looking.read (h : Looking R) (name : String) (path : Path) :
    Keeps R (read name path : ExceptT WrapperError (StateM σ) _).run := by
  have hR := h.composable
  refine Keeps.bindExcept hR (Keeps.mapError hR _ (h.readBytes _)) fun bytes => ?_
  split
  · exact Keeps.pure hR _
  · split
    · exact Keeps.pure hR _
    · exact Keeps.pure hR _

theorem Loading.load (h : Loading R) (blueprints : Blueprints) (name : String) (path : Path) :
    Keeps R (load blueprints name path : ExceptT WrapperError (StateM σ) _).run := by
  have hR := h.composable
  refine Keeps.bindExcept hR ?_ fun _ => h.toLooking.read name path
  refine Keeps.bindExcept hR (Keeps.lift hR (h.present path)) fun there => ?_
  split
  · exact Keeps.pure hR _
  · split
    · exact h.writeOnce _ _
    · exact Keeps.pure hR _

/-- For a name without a blueprint a record is looked for, and none is written. -/
theorem Looking.load (h : Looking R) (hkind : blueprints.kind? name = none) (path : Path) :
    Keeps R (load blueprints name path : ExceptT WrapperError (StateM σ) _).run := by
  have hR := h.composable
  refine Keeps.bindExcept hR ?_ fun _ => h.read name path
  refine Keeps.bindExcept hR (Keeps.lift hR (h.present path)) fun there => ?_
  split
  · exact Keeps.pure hR _
  · rw [hkind]
    exact Keeps.pure hR _

/-- A request does no more to a machine than loading the record of its name does. -/
theorem keeps_materialize (hR : Composable R) {unit : BundleRef}
    (hload : ∀ name path, unit = .named name →
      Keeps R (load blueprints name path : ExceptT WrapperError (StateM σ) _).run) :
    Keeps R (store.materialize blueprints unit : StateM σ _) := by
  intro s
  rcases hrun : (store.materialize blueprints unit : StateM σ _).run s
    with ⟨⟨made, store', blueprints'⟩, s'⟩
  show R s s'
  -- Making the instance is left to the blueprints: what it comes to does not matter here.
  rcases materialize_cases hrun with ⟨_, -, -, -, -, rfl⟩ | ⟨name, result, hunit, hresolve, -⟩
  · exact hR.refl s'
  rcases resolve_cases hresolve with ⟨-, -, -, rfl⟩ |
    ⟨path, -, ⟨_, -, -, -, rfl⟩ | ⟨-, ⟨_, hrun, -⟩ | ⟨_, hrun, -⟩⟩⟩
  · exact hR.refl s'
  · exact hR.refl s'
  · exact (hload name path hunit).of_run hrun
  · exact (hload name path hunit).of_run hrun

end WrapperStore

/-! ## 2. Files that stay -/

namespace Files

variable {σ : Type} {files : Files σ}

theorem composable_same : Composable files.Same where
  refl _ := ⟨rfl, rfl⟩
  trans h h' := ⟨h'.tree.trans h.tree, h'.cwd.trans h.cwd⟩

/-- The file at a location keeps its content. -/
def Stays (files : Files σ) (location : Location) (content : ByteArray) (s s' : σ) : Prop :=
  (files.tree s).content? location = some content →
    (files.tree s').content? location = some content

theorem Same.stays {location : Location} {content : ByteArray} {s s' : σ} (h : files.Same s s') :
    files.Stays location content s s' := by
  rw [Stays, h.tree]
  exact id

variable [Host (StateM σ)]

theorem Precise.looking (h : files.Precise) : WrapperStore.Looking files.Same where
  composable := composable_same
  present := h.present
  readBytes := h.readBytes

theorem Precise.loading (h : files.Precise) (location : Location) (content : ByteArray) :
    WrapperStore.Loading (files.Stays location content) where
  -- To stay is to stay with the same content, so one step after the other is composition.
  composable := ⟨fun _ => id, fun h h' => h' ∘ h⟩
  present path s := (h.present path s).stays
  readBytes path s := (h.readBytes path s).stays
  createDirectories path s := by
    intro hcontent
    rw [(h.createDirectories path s).content? location id, hcontent]
  createFile path found s := h.created path found s location content
  log event s := (h.log event s).stays

/-- No definition and no request takes a file away or changes it. -/
theorem Precise.stays_after (h : files.Precise) {jobs : List (Job σ)}
    (hflush : ∀ store, .flush store ∉ jobs) (hothers : ∀ change, .others change ∉ jobs)
    (location : Location) (content : ByteArray) (w : Workshop σ) :
    files.Stays location content w.machine (w.after jobs).machine := by
  induction jobs generalizing w with
  | nil => exact id
  | cons job rest ih =>
    have hrest := ih (fun store hin => hflush store (List.mem_cons_of_mem _ hin))
      (fun change hin => hothers change (List.mem_cons_of_mem _ hin)) (w.step job).2
    intro hcontent
    refine hrest ?_
    cases job with
    | define => exact hcontent
    | materialize store shelf unit =>
      have hkeeps : Keeps (files.Stays location content)
          ((w.stores store).materialize (w.shelves shelf) unit : StateM σ _) :=
        WrapperStore.keeps_materialize (h.loading location content).composable
          fun name path _ => (h.loading location content).load _ name path
      exact hkeeps w.machine hcontent
    | flush store => exact absurd List.mem_cons_self (hflush store)
    | others change => exact absurd List.mem_cons_self (hothers change)

/-! ## 3. All stores on a machine -/

/-- What holds of the records on a machine, however many stores use them. -/
structure WrittenOnce (files : Files σ) : Prop where
  /-- While things are defined and requested, by any stores and in any order, every file that is there
  keeps its content, whether it is a record or not and whether the requests are met or not. -/
  kept : ∀ (w : Workshop σ) (jobs : List (Job σ)),
    (∀ store, .flush store ∉ jobs) → (∀ change, .others change ∉ jobs) →
    ∀ location content, (files.tree w.machine).content? location = some content →
      (files.tree (w.after jobs).machine).content? location = some content
  /-- No file comes up for a name without a blueprint. -/
  undefined : ∀ (store : WrapperStore) (blueprints : Blueprints) (name : String) (s : σ),
    blueprints.kind? name = none →
      files.Same s ((store.materialize blueprints (.named name) : StateM σ _).run s).2
  /-- A record that cannot be read, that is none or that is for another name is not remembered. -/
  refused : ∀ (store store' : WrapperStore) (blueprints blueprints' : Blueprints) (unit : BundleRef)
    (error : WrapperError) (s s' : σ), (∀ name, error ≠ .unresolved name) →
    (store.materialize blueprints unit : StateM σ _).run s
        = ((.error error, store', blueprints'), s') → store' = store
  /-- A store that has made something for a name has read its record. -/
  loaded : ∀ (store store' : WrapperStore) (blueprints blueprints' : Blueprints) (name : String)
    (directory : Path) (i : Instance) (s s' : σ), store.directory = some directory →
    (store.materialize blueprints (.named name) : StateM σ _).run s
        = ((.ok i, store', blueprints'), s') →
      ∃ wrapper, store'.Knows directory (WrapperStore.recordPath directory name) wrapper
  /-- Whatever is done then and whatever becomes of the machine, until the store is flushed this
  record and the blueprints of the moment decide what is made for the name. Nothing is done for it
  to the machine or to the store. -/
  remembered : ∀ (w : Workshop σ) (jobs : List (Job σ)) (store : Nat) (name : String)
    (directory : Path) (wrapper : Wrapper), .flush store ∉ jobs →
    (w.stores store).Knows directory (WrapperStore.recordPath directory name) wrapper →
    ∀ (blueprints : Blueprints) (s : σ),
      (((w.after jobs).stores store).materialize blueprints (.named name) : StateM σ _).run s
        = (((blueprints.produce name wrapper.composes).1, (w.after jobs).stores store,
            (blueprints.produce name wrapper.composes).2), s)

end Files

namespace WrapperStore

variable {σ : Type} [Host (StateM σ)] {files : Files σ}

/-- **Records are written once and read once**, on every machine whose operations go no further than
their paths. -/
theorem written_once (h : files.Precise) : files.WrittenOnce where
  kept w jobs hflush hothers location content := h.stays_after hflush hothers location content w
  undefined store blueprints name s hkind := by
    -- Looking for the record is all that is left of loading it.
    refine keeps_materialize h.looking.composable (fun other path hother => ?_) s
    obtain rfl := BundleRef.named.inj hother
    exact h.looking.load hkind path
  refused store store' blueprints blueprints' unit error s s' herror hrun := by
    rcases (unchanged_of_materialize_error hrun).2 with hstore | ⟨name, hname⟩
    · exact hstore
    · exact absurd hname (herror name)
  loaded store store' blueprints blueprints' name directory i s s' hdirectory hrun := by
    obtain ⟨wrapper, hwrapper⟩ :=
      exists_loaded_of_materialize hrun (path?_of_directory hdirectory name)
    exact ⟨wrapper, (kept_of_materialize hrun).1.trans hdirectory, hwrapper⟩
  remembered w jobs store name directory wrapper hflush hknows blueprints s := by
    obtain ⟨hdirectory, hloaded⟩ := Workshop.knows_after hflush hknows
    exact run_materialize_of_loaded (path?_of_directory hdirectory name) hloaded

/-- Why a request failed. -/
def failure? {ε α : Type} : Except ε α → Option ε
  | .error error => some error
  | .ok _ => none

theorem eq_error_of_failure? {ε α : Type} {result : Except ε α} {error : ε}
    (h : failure? result = some error) : result = .error error := by
  cases result with
  | error found => rw [Option.some.inj h]
  | ok _ => exact absurd h (by simp [failure?])

/-- A workshop whose stores have read nothing, on a machine whose file for greeters is no record. -/
def spoiled : Workshop World where
  stores _ := new (some ⟨"w"⟩)
  shelves _ := Registry.gallery.blueprints
  machine := Registry.recordHolder "Greeter" "?".toUTF8

/-- A workshop whose stores have read a record that names the concrete panel. -/
def misled : Workshop World where
  stores _ := ⟨some ⟨"w"⟩, OrderedMap.empty.insert (recordPath ⟨"w"⟩ "Greeter")
    ⟨"Greeter", "Panel", .composable⟩⟩
  shelves _ := Registry.gallery.blueprints
  machine := .fresh [] ⟨"tmp"⟩

/-- A file that holds no record stays as it is, and stops a new store. A store that has read a record
is led by it still when the others have changed the machine and were flushed. -/
theorem written_once_misled :
    (World.files.tree (spoiled.after [.materialize 0 0 (.named "Greeter"),
        .materialize 1 0 (.named "Panel")]).machine).content? ["w", fileName "Greeter"]
      = some "?".toUTF8 ∧
    (∃ path store' blueprints' w',
      ((new (some ⟨"w"⟩)).materialize Registry.gallery.blueprints (.named "Greeter") :
        StateM World _).run spoiled.machine = ((.error (.corrupt path), store', blueprints'), w') ∧
      store' = new (some ⟨"w"⟩)) ∧
    ∀ s : World, ∃ i kept,
      (((misled.after [.flush 1, .others fun _ => spoiled.machine]).stores 0).materialize
        Registry.gallery.blueprints (.named "Greeter") : StateM World _).run s
          = ((.ok i, kept), s) ∧ i.owner = ⟨.made 1 1, "Panel"⟩ := by
  have hall := written_once World.precise
  refine ⟨?_, ?_, ?_⟩
  · have hthere : (World.files.tree spoiled.machine).content? ["w", fileName "Greeter"]
        = some "?".toUTF8 := by
      rw [World.files, spoiled, Registry.recordHolder, FileTree.content?_insert_file, if_pos rfl]
      rw [FileTree.get?_insert, if_neg (by simp), if_neg (by simp)]
      exact Option.some_ne_none _ |>.symm
    exact hall.kept spoiled _ (by simp) (by simp) _ _ hthere
  · rcases hrun : ((new (some ⟨"w"⟩)).materialize Registry.gallery.blueprints (.named "Greeter") :
      StateM World _).run spoiled.machine with ⟨⟨made, store', blueprints'⟩, w'⟩
    have hfailure : failure? (((new (some ⟨"w"⟩)).materialize Registry.gallery.blueprints
        (.named "Greeter") : StateM World _).run spoiled.machine).1.1
          = some (.corrupt (recordPath ⟨"w"⟩ "Greeter")) := by decide +kernel
    rw [hrun] at hfailure
    obtain rfl := eq_error_of_failure? hfailure
    exact ⟨_, store', blueprints', w', rfl, hall.refused _ _ _ _ _ _ _ _ (by simp) hrun⟩
  · intro s
    have hknows : (misled.stores 0).Knows ⟨"w"⟩ (recordPath ⟨"w"⟩ "Greeter")
        ⟨"Greeter", "Panel", .composable⟩ := by
      refine ⟨rfl, ?_⟩
      show (OrderedMap.insert _ _ _).get? _ = _
      rw [OrderedMap.get?_insert, if_pos rfl]
    rw [hall.remembered misled [.flush 1, .others fun _ => spoiled.machine] 0 "Greeter" ⟨"w"⟩ _
      (by simp) hknows]
    exact ⟨_, _, rfl, rfl⟩

end WrapperStore

end Graft
