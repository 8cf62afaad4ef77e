/-
Stores of records at work side by side.

Stores know nothing of each other: each remembers what it has read, and they meet on the machine only,
in the files of a directory that several of them may share. A workshop has any number of stores and of
collections of blueprints, told apart by numbers, and one machine. A list of jobs says what is done in
which order; among the jobs are those of somebody else, who may do anything to the machine.

What a store has read decides what a name stands for, until the store is flushed. This is
`Workshop.loaded_after` for a run and `WrapperStore.run_materialize_of_loaded` for the next request.
-/
import Graft.Proofs.Materialization

set_option autoImplicit false

namespace Graft

/-! ## 1. Jobs -/

/-- Stores, collections of blueprints, and the machine that they are used on. -/
structure Workshop (σ : Type) where
  stores : Nat → WrapperStore
  shelves : Nat → Blueprints
  machine : σ

/-- Things told apart by numbers, one of which was exchanged. -/
def exchange {α : Type} (things : Nat → α) (number : Nat) (thing : α) : Nat → α :=
  fun other => if other = number then thing else things other

theorem exchange_self {α : Type} (things : Nat → α) (number : Nat) (thing : α) :
    exchange things number thing number = thing := if_pos rfl

theorem exchange_of_ne {α : Type} (things : Nat → α) {number other : Nat} (thing : α)
    (h : other ≠ number) : exchange things number thing other = things other := if_neg h

/-- Something that is done in a workshop. -/
inductive Job (σ : Type)
  | define (shelf : Nat) (name : String) (kind : Blueprint.Kind) (make : Nat → Bundle)
  | materialize (store shelf : Nat) (unit : BundleRef)
  | flush (store : Nat)
  /-- Somebody else uses the machine. -/
  | others (change : σ → σ)

namespace Workshop

variable {σ : Type} [Host (StateM σ)]

/-- One job: the answer, if something was to be materialized, and the workshop after it. -/
def step (w : Workshop σ) : Job σ → Option (Except WrapperError Instance) × Workshop σ
  | .define shelf name kind make =>
    (none, { w with
      shelves := exchange w.shelves shelf ((w.shelves shelf).define name kind make) })
  | .materialize store shelf unit =>
    let ((made, kept, blueprints), machine) :=
      ((w.stores store).materialize (w.shelves shelf) unit : StateM σ _).run w.machine
    (some made, ⟨exchange w.stores store kept, exchange w.shelves shelf blueprints,
      machine⟩)
  | .flush store =>
    let ((_, kept), machine) := ((w.stores store).flush : StateM σ _).run w.machine
    (none, ⟨exchange w.stores store kept, w.shelves, machine⟩)
  | .others change => (none, { w with machine := change w.machine })

variable {w : Workshop σ} {store shelf : Nat}

theorem step_materialize {unit : BundleRef} {made : Except WrapperError Instance}
    {kept : WrapperStore} {blueprints : Blueprints} {machine : σ}
    (h : ((w.stores store).materialize (w.shelves shelf) unit : StateM σ _).run w.machine
      = ((made, kept, blueprints), machine)) :
    w.step (.materialize store shelf unit)
      = (some made, ⟨exchange w.stores store kept,
          exchange w.shelves shelf blueprints, machine⟩) := by
  simp only [step, h]

theorem step_flush {removed : Except WrapperError Nat} {kept : WrapperStore} {machine : σ}
    (h : ((w.stores store).flush : StateM σ _).run w.machine = ((removed, kept), machine)) :
    w.step (.flush store) = (none, ⟨exchange w.stores store kept, w.shelves, machine⟩) := by
  simp only [step, h]

/-- The workshop after some jobs. -/
def after (w : Workshop σ) (jobs : List (Job σ)) : Workshop σ :=
  jobs.foldl (fun w job => (w.step job).2) w

/-- The answers to some jobs, one after the other. -/
def answers (w : Workshop σ) : List (Job σ) → List (Option (Except WrapperError Instance))
  | [] => []
  | job :: rest => (w.step job).1 :: answers (w.step job).2 rest

end Workshop

/-! ## 2. What comes of a name -/

/-- What is made for a name that stands for a blueprint, and the blueprints afterwards. -/
def Blueprints.produce (blueprints : Blueprints) (name composes : String) :
    Except WrapperError Instance × Blueprints :=
  match blueprints.instantiate? composes with
  | some (made, blueprints) => (.ok made, blueprints)
  | none => (.error (.unresolved name), blueprints)

/-- Nothing is made of a blueprint that there is not. -/
theorem Blueprints.produce_of_kind?_eq_none {blueprints : Blueprints} {name composes : String}
    (h : blueprints.kind? composes = none) :
    blueprints.produce name composes = (.error (.unresolved name), blueprints) := by
  have hnone : blueprints.byName.get? composes = none := Option.map_eq_none_iff.mp h
  rw [produce, instantiate?, hnone]
  rfl

/-- What comes of a reference where no records are: an instance is itself, and a name stands for the
blueprint of that name. -/
def Blueprints.answer (blueprints : Blueprints) :
    BundleRef → Except WrapperError Instance × Blueprints
  | .live i => (.ok i, blueprints)
  | .named name => blueprints.produce name name

/-- It can only be that a name has no blueprint. -/
theorem Blueprints.unresolved_of_answer {blueprints : Blueprints} {unit : BundleRef}
    {error : WrapperError} (h : (blueprints.answer unit).1 = .error error) :
    ∃ name, unit = .named name ∧ error = .unresolved name := by
  cases unit with
  | live i => exact absurd h (by simp [answer])
  | named name =>
    refine ⟨name, rfl, ?_⟩
    change (blueprints.produce name name).1 = _ at h
    rw [produce] at h
    cases hmake : blueprints.instantiate? name with
    | none =>
      rw [hmake] at h
      exact (Except.error.inj h).symm
    | some pair =>
      rw [hmake] at h
      exact absurd h (by simp)

namespace WrapperStore

/-- The path of the file for a name, in a directory. -/
def recordPath (directory : Path) (name : String) : Path := directory.entry (fileName name)

theorem path?_of_directory {store : WrapperStore} {directory : Path}
    (h : store.directory = some directory) (name : String) :
    store.path? name = some (recordPath directory name) := by
  rw [path?, h]
  rfl

variable {σ : Type} [Host (StateM σ)]
variable {store store' : WrapperStore} {blueprints blueprints' : Blueprints} {name : String}
variable {path : Path} {wrapper : Wrapper} {s s' : σ}

/-- Once it is known what a name stands for, nothing but the blueprints matters. -/
theorem run_materialize_of_resolve {composes : String}
    (h : (store.resolve blueprints name : StateM σ _).run s = ((.ok composes, store'), s')) :
    (store.materialize blueprints (.named name) : StateM σ _).run s
      = (((blueprints.produce name composes).1, store', (blueprints.produce name composes).2),
          s') := by
  simp only [materialize, run_bind, h, Blueprints.produce]
  cases blueprints.instantiate? composes <;> rfl

theorem run_materialize_of_resolve_error {error : WrapperError}
    (h : (store.resolve blueprints name : StateM σ _).run s = ((.error error, store'), s')) :
    (store.materialize blueprints (.named name) : StateM σ _).run s
      = ((.error error, store', blueprints), s') := by
  simp only [materialize, run_bind, h]
  rfl

/-- A record that was read is all that is asked for. -/
theorem run_materialize_of_loaded (hpath : store.path? name = some path)
    (hloaded : store.loaded.get? path = some wrapper) :
    (store.materialize blueprints (.named name) : StateM σ _).run s
      = (((blueprints.produce name wrapper.composes).1, store,
          (blueprints.produce name wrapper.composes).2), s) := by
  refine run_materialize_of_resolve ?_
  simp only [resolve, hpath, hloaded]
  rfl

/-- A record that was not read is loaded, and remembered if that goes well. -/
theorem run_resolve_of_load (hpath : store.path? name = some path)
    (hloaded : store.loaded.get? path = none)
    (hload : (load blueprints name path : ExceptT _ (StateM σ) _).run.run s = (.ok wrapper, s')) :
    (store.resolve blueprints name : StateM σ _).run s
      = ((.ok wrapper.composes, { store with loaded := store.loaded.insert path wrapper }), s') := by
  simp only [resolve, hpath, hloaded, run_bind, hload]
  rfl

theorem run_resolve_of_load_error {error : WrapperError} (hpath : store.path? name = some path)
    (hloaded : store.loaded.get? path = none)
    (hload : (load blueprints name path : ExceptT _ (StateM σ) _).run.run s = (.error error, s')) :
    (store.resolve blueprints name : StateM σ _).run s = ((.error error, store), s') := by
  simp only [resolve, hpath, hloaded, run_bind, hload]
  rfl

/-- Where nothing is kept, a name stands for itself. -/
theorem run_materialize_of_path?_eq_none (hpath : store.path? name = none) :
    (store.materialize blueprints (.named name) : StateM σ _).run s
      = (((blueprints.produce name name).1, store, (blueprints.produce name name).2), s) := by
  refine run_materialize_of_resolve ?_
  simp only [resolve, hpath]
  rfl

/-- A request adds a record to what a store has read, or nothing; every other record is as before. -/
theorem loaded_of_materialize {unit : BundleRef} {made : Except WrapperError Instance}
    (h : (store.materialize blueprints unit : StateM σ _).run s
      = ((made, store', blueprints'), s')) :
    store' = store ∨ ∃ name path wrapper, unit = .named name ∧ store.path? name = some path ∧
      store.loaded.get? path = none ∧
      (load blueprints name path : ExceptT _ (StateM σ) _).run.run s = (.ok wrapper, s') ∧
      store' = { store with loaded := store.loaded.insert path wrapper } := by
  rcases materialize_cases h with ⟨_, -, -, hstore, -⟩ | ⟨name, result, hunit, hresolve, -⟩
  · exact .inl hstore
  rcases resolve_cases hresolve with ⟨-, -, hstore, -⟩ |
    ⟨path, hpath, ⟨_, -, -, hstore, -⟩ | ⟨hloaded, hload⟩⟩
  · exact .inl hstore
  · exact .inl hstore
  · rcases hload with ⟨_, -, -, hstore⟩ | ⟨wrapper, hload, -, hstore⟩
    · exact .inl hstore
    · exact .inr ⟨name, path, wrapper, hunit, hpath, hloaded, hload, hstore⟩

/-- No request makes a store go elsewhere or forget. -/
theorem kept_of_materialize {unit : BundleRef} {made : Except WrapperError Instance}
    (h : (store.materialize blueprints unit : StateM σ _).run s
      = ((made, store', blueprints'), s')) :
    store'.directory = store.directory ∧
      ∀ path wrapper, store.loaded.get? path = some wrapper →
        store'.loaded.get? path = some wrapper := by
  rcases loaded_of_materialize h with rfl | ⟨_, fresh, added, -, -, hnone, -, rfl⟩
  · exact ⟨rfl, fun _ _ h => h⟩
  · refine ⟨rfl, fun path wrapper hloaded => ?_⟩
    show (store.loaded.insert fresh added).get? path = some wrapper
    rw [OrderedMap.get?_insert, if_neg, hloaded]
    rintro rfl
    exact absurd (hnone.symm.trans hloaded) (by simp)

/-- A name that something was made for is one whose record was read, if records are kept. -/
theorem exists_loaded_of_materialize {i : Instance}
    (h : (store.materialize blueprints (.named name) : StateM σ _).run s
      = ((.ok i, store', blueprints'), s'))
    (hpath : store.path? name = some path) : ∃ wrapper, store'.loaded.get? path = some wrapper := by
  rcases materialize_cases h with ⟨_, hunit, -⟩ | ⟨_, result, hunit, hresolve, hend⟩
  · exact absurd hunit (by simp)
  obtain rfl := BundleRef.named.inj hunit
  rcases resolve_cases hresolve with ⟨hnone, -⟩ | ⟨found, hfound, hloaded⟩
  · exact absurd (hnone.symm.trans hpath) (by simp)
  obtain rfl := Option.some.inj (hfound.symm.trans hpath)
  rcases hloaded with ⟨wrapper, hloaded, -, rfl, -⟩ | ⟨-, ⟨error, -, rfl, -⟩ | ⟨wrapper, -, -, rfl⟩⟩
  · exact ⟨wrapper, hloaded⟩
  · -- Without a record nothing is made.
    rcases hend with ⟨_, -, herror, -⟩ | ⟨_, herror, -⟩ | ⟨_, _, herror, -⟩
    · exact absurd herror (by simp)
    · exact absurd herror (by simp)
    · exact absurd herror (by simp)
  · exact ⟨wrapper, by rw [OrderedMap.get?_insert, if_pos rfl]⟩

end WrapperStore

/-! ## 3. What a store remembers -/

/-- A store has a directory, and has read the record at a path. -/
def WrapperStore.Knows (store : WrapperStore) (directory path : Path) (wrapper : Wrapper) : Prop :=
  store.directory = some directory ∧ store.loaded.get? path = some wrapper

namespace Workshop

variable {σ : Type} [Host (StateM σ)] {w : Workshop σ} {store : Nat}
variable {directory path : Path} {wrapper : Wrapper}

/-- Only flushing a store makes it forget a record. -/
theorem knows_step {job : Job σ} (hjob : job ≠ .flush store)
    (h : (w.stores store).Knows directory path wrapper) :
    ((w.step job).2.stores store).Knows directory path wrapper := by
  cases job with
  | define => exact h
  | others => exact h
  | materialize other shelf unit =>
    rcases hrun : ((w.stores other).materialize (w.shelves shelf) unit : StateM σ _).run w.machine
      with ⟨⟨made, kept, blueprints⟩, machine⟩
    rw [step_materialize hrun]
    show (exchange w.stores other kept store).Knows directory path wrapper
    -- What another store reads is none of this store's business.
    by_cases hother : store = other
    · subst hother
      obtain ⟨hdirectory, hloaded⟩ := WrapperStore.kept_of_materialize hrun
      rw [exchange_self]
      exact ⟨hdirectory.trans h.1, hloaded path wrapper h.2⟩
    · rw [exchange_of_ne _ _ hother]
      exact h
  | flush other =>
    have hother : store ≠ other := by
      rintro rfl
      exact hjob rfl
    rcases hrun : ((w.stores other).flush : StateM σ _).run w.machine with ⟨⟨removed, kept⟩, machine⟩
    rw [step_flush hrun]
    show (exchange w.stores other kept store).Knows directory path wrapper
    rw [exchange_of_ne _ _ hother]
    exact h

theorem knows_after {jobs : List (Job σ)} (hjobs : .flush store ∉ jobs)
    (h : (w.stores store).Knows directory path wrapper) :
    ((w.after jobs).stores store).Knows directory path wrapper := by
  induction jobs generalizing w with
  | nil => exact h
  | cons job rest ih =>
    -- The workshop is any one, so that the rest can start from where the first job ends.
    obtain ⟨hjob, hrest⟩ := List.ne_and_not_mem_of_not_mem_cons hjobs
    exact ih hrest (knows_step (Ne.symm hjob) h)

end Workshop

end Graft
