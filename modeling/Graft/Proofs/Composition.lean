/-
What is composed by name.

The gate asks whether the name of a unit is that of a composable blueprint. What is made afterwards
follows from the record of the name: the one that the store remembers, or else the one that its file
holds, or else, where nothing is, the one that is written now and names the name itself. The gate and
the record are looked at by different steps, and nothing compares them.

The main statement, `Registry.composed_by_name`, says whose operations a registration by name
installs and exactly when they are those of a composable blueprint: when the record in use names the
name itself or another composable blueprint. `Registry.composed_concrete` shows a record that does
not.
-/
import Graft.Proofs.Agreement
import Graft.Proofs.FailedRegistration
import Graft.Proofs.FileContents
import Graft.Proofs.Interfaces
import Graft.Proofs.JsonText

set_option autoImplicit false

namespace Graft

open FileTree (Location target)

/-! ## 1. Records on disk -/

namespace WrapperStore

variable {blueprints : Blueprints} {name : String} {path : Path} {w w' : World}

/-- A record that was written is read as it was. -/
theorem ofBytes?_toPrettyText (wrapper : Wrapper) :
    (Json.ofBytes? (Json.toPrettyText wrapper).toUTF8 : Option Wrapper) = some wrapper := by
  refine Json.ofBytes?_write Json.quiet_pretty ?_ ?_
  · refine Json.written_record fun field hfield => ?_
    simp only [List.mem_cons, List.not_mem_nil, or_false] at hfield
    rcases hfield with rfl | rfl | rfl <;> exact .string _
  · obtain ⟨unit, composes, kind⟩ := wrapper
    cases kind <;> rfl

/-- A content that has its place once a file is made: what was there stays, and where nothing was,
the given content may be. -/
def Placed (path : Path) (content : ByteArray) (w w' : World) : Prop :=
  w'.cwd = w.cwd ∧ (w'.tree.content? (target w.cwd path) = w.tree.content? (target w.cwd path) ∨
    (w.tree.content? (target w.cwd path) = none ∧
      w'.tree.content? (target w.cwd path) = some content))

theorem placed_of_createFile {content : ByteArray} {result : Except FileError Unit}
    (h : (Host.createFile path content : StateM World _).run w = (result, w')) :
    Placed path content w w' := by
  rw [World.run_createFile] at h
  rcases World.change_cases h with ⟨error, -, rfl⟩ | ⟨tree, htree, -, rfl⟩
  · exact ⟨rfl, .inl rfl⟩
  · have hfree := (FileTree.createFile_eq_ok htree).1
    refine ⟨rfl, .inr ⟨by rw [FileTree.content?, hfree], ?_⟩⟩
    show tree.content? (target w.cwd path) = some content
    rw [FileTree.content?_createFile htree, if_pos rfl]

theorem placed_of_writeOnce {wrapper : Wrapper}
    (h : (writeOnce path wrapper : ExceptT _ (StateM World) _).run.run w = (.ok (), w')) :
    Placed path (Json.toPrettyText wrapper).toUTF8 w w' := by
  unfold writeOnce at h
  generalize (Json.toPrettyText wrapper).toUTF8 = content at h ⊢
  obtain ⟨_, w₁, hdirectories, h⟩ := run_bind_eq_ok h
  obtain ⟨written, w₂, hfile, h⟩ := run_bind_eq_ok h
  rw [run_lift] at hfile
  rcases hcreate : (Host.createFile path content : StateM World _).run w₁ with ⟨result, w₃⟩
  rw [hcreate] at hfile
  obtain rfl : w₃ = w₂ := congrArg Prod.snd hfile
  have hplaced := placed_of_createFile hcreate
  -- The directories are made without touching a file, and the log is no file.
  obtain ⟨hcwd, hcontents⟩ :=
    World.same_contents_of_createDirectories (run_mapError_eq_ok hdirectories)
  have hlogged : w'.cwd = w₃.cwd ∧ w'.tree = w₃.tree := by
    split at h
    · obtain rfl := congrArg Prod.snd h
      exact ⟨rfl, rfl⟩
    · obtain rfl := congrArg Prod.snd h
      exact ⟨rfl, rfl⟩
    · exact absurd (Prod.mk.inj h).1 (by rintro ⟨⟩)
  unfold Placed at *
  rw [hcwd, hcontents] at hplaced
  rwa [hlogged.1, hlogged.2]

/-- After the record for a name was seen to, its file holds what it held; or nothing was there, and
it holds the record that names the name itself. -/
theorem ensureWritten_cases
    (h : (ensureWritten blueprints name path : ExceptT _ (StateM World) _).run.run w
      = (.ok (), w')) :
    w'.cwd = w.cwd ∧ (w'.tree.content? (target w.cwd path) = w.tree.content? (target w.cwd path) ∨
      (w.tree.content? (target w.cwd path) = none ∧ ∃ kind,
        w'.tree.content? (target w.cwd path)
          = some (Json.toPrettyText (⟨name, name, kind⟩ : Wrapper)).toUTF8)) := by
  obtain ⟨there, w₁, hthere, h⟩ := run_bind_eq_ok h
  obtain rfl : w = w₁ := congrArg Prod.snd hthere
  -- A record that is there is left alone, and none is written for a name without a blueprint.
  split at h
  · obtain rfl : w = w' := congrArg Prod.snd h
    exact ⟨rfl, .inl rfl⟩
  · split at h
    · next kind _ =>
      obtain ⟨hcwd, hsame | ⟨hfree, hnew⟩⟩ := placed_of_writeOnce h
      · exact ⟨hcwd, .inl hsame⟩
      · exact ⟨hcwd, .inr ⟨hfree, kind, hnew⟩⟩
    · exact absurd (Prod.mk.inj h).1 (by rintro ⟨⟩)

/-- What is read from the file of a record is the record for the name. -/
theorem read_eq_ok {wrapper : Wrapper}
    (h : (read name path : ExceptT _ (StateM World) _).run.run w = (.ok wrapper, w')) :
    ∃ bytes, w.tree.content? (target w.cwd path) = some bytes ∧
      (Json.ofBytes? bytes : Option Wrapper) = some wrapper ∧ wrapper.unit = name := by
  obtain ⟨bytes, w₁, hbytes, h⟩ := run_bind_eq_ok h
  have hread : w.tree.readBytes w.cwd path = .ok bytes :=
    congrArg Prod.fst (run_mapError_eq_ok hbytes)
  refine ⟨bytes, FileTree.content?_of_readBytes hread, ?_⟩
  split at h
  · exact absurd (Prod.mk.inj h).1 (by rintro ⟨⟩)
  · next found hfound =>
    split at h
    · next hunit =>
      obtain rfl : found = wrapper := Except.ok.inj (congrArg Prod.fst h)
      exact ⟨hfound, hunit⟩
    · exact absurd (Prod.mk.inj h).1 (by rintro ⟨⟩)

/-- The record that a machine holds at a path for a name; a name without a record names itself. -/
def recorded? (w : World) (name : String) (path : Path) : Option String :=
  match w.tree.content? (target w.cwd path) with
  | none => some name
  | some bytes => (Json.ofBytes? bytes : Option Wrapper).map Wrapper.composes

/-- A record that was loaded names what the machine held for the name before. -/
theorem recorded?_of_load {wrapper : Wrapper}
    (h : (load blueprints name path : ExceptT _ (StateM World) _).run.run w = (.ok wrapper, w')) :
    recorded? w name path = some wrapper.composes := by
  obtain ⟨_, w₁, hwritten, hread⟩ := run_bind_eq_ok h
  obtain ⟨bytes, hbytes, hwrapper, -⟩ := read_eq_ok hread
  obtain ⟨hcwd, hplace⟩ := ensureWritten_cases hwritten
  rw [hcwd] at hbytes
  unfold recorded?
  rcases hplace with hsame | ⟨hfree, kind, hnew⟩
  · rw [← hsame, hbytes]
    show (Json.ofBytes? bytes : Option Wrapper).map _ = _
    rw [hwrapper]
    rfl
  · -- The record is the one that was just written.
    rw [hfree]
    rw [hnew] at hbytes
    obtain rfl := Option.some.inj hbytes
    rw [ofBytes?_toPrettyText] at hwrapper
    obtain rfl := Option.some.inj hwrapper
    rfl

/-! ## 2. What a name stands for -/

/-- The name of the blueprint that a name stands for: its own where nothing is kept, what a record
that was read says, and otherwise what the file of the record says. -/
def standsFor (store : WrapperStore) (w : World) (name : String) : Option String :=
  match store.path? name with
  | none => some name
  | some path =>
    match store.loaded.get? path with
    | some wrapper => some wrapper.composes
    | none => recorded? w name path

variable {store store' : WrapperStore}

theorem standsFor_of_resolve {composes : String}
    (h : (store.resolve blueprints name : StateM World _).run w = ((.ok composes, store'), w')) :
    store.standsFor w name = some composes := by
  unfold standsFor
  -- Nothing is kept, or the record is in use already, or it was loaded now.
  rcases resolve_cases h with ⟨hpath, hok, -⟩ |
    ⟨path, hpath, ⟨wrapper, hloaded, hok, -⟩ | ⟨hloaded, hload⟩⟩
  · rw [hpath, Except.ok.inj hok]
  · rw [hpath, Except.ok.inj hok]
    show (match store.loaded.get? path with | some wrapper => _ | none => _) = _
    rw [hloaded]
  · rcases hload with ⟨_, -, hok, -⟩ | ⟨wrapper, hload, hok, -⟩
    · exact absurd hok (by simp)
    · rw [hpath, Except.ok.inj hok]
      show (match store.loaded.get? path with | some wrapper => _ | none => _) = _
      rw [hloaded]
      exact recorded?_of_load hload

end WrapperStore

/-! ## 3. Whose operations are installed -/

/-- The instance that is made next of a blueprint. -/
def Blueprint.next (blueprint : Blueprint) : Instance :=
  ⟨.made blueprint.number (blueprint.made + 1), blueprint.make (blueprint.made + 1)⟩

/-- The blueprints after the factory of one of them was used once. -/
def Blueprints.used (blueprints : Blueprints) (name : String) (blueprint : Blueprint) :
    Blueprints :=
  { blueprints with
    byName := blueprints.byName.insert name { blueprint with made := blueprint.made + 1 } }

theorem Blueprints.instantiate?_eq_some {blueprints blueprints' : Blueprints} {name : String}
    {i : Instance} (h : blueprints.instantiate? name = some (i, blueprints')) :
    ∃ blueprint, blueprints.byName.get? name = some blueprint ∧ i = blueprint.next ∧
      blueprints' = blueprints.used name blueprint := by
  obtain ⟨blueprint, hfound, hmade⟩ := Option.map_eq_some_iff.mp h
  obtain ⟨hi, hused⟩ := Prod.mk.inj hmade
  exact ⟨blueprint, hfound, hi.symm, hused.symm⟩

theorem Blueprints.exists_of_instantiate? {blueprints blueprints' : Blueprints} {name : String}
    {i : Instance} (h : blueprints.instantiate? name = some (i, blueprints')) :
    ∃ blueprint, blueprints.byName.get? name = some blueprint ∧ i = blueprint.next := by
  obtain ⟨blueprint, hfound, hi, -⟩ := instantiate?_eq_some h
  exact ⟨blueprint, hfound, hi⟩

/-- A handler is a public operation of an instance, and runs the declared body on this instance. -/
def Handler.BoundTo (handler : Handler) (i : Instance) (name : String) : Prop :=
  ∃ member ∈ i.bundle.members, member.name = name ∧ member.visibility = .publicAccess ∧
    member.isStatic = false ∧ ∃ signature body, member.kind = .operation signature body ∧
      handler = ⟨signature, some i.owner, body i.owner⟩

/-- Every handler in the interface of an instance is bound to it. -/
theorem Instance.boundTo_of_interface {i : Instance} {name : String} {handler : Handler}
    (h : i.interface.get? name = some handler) : handler.BoundTo i name := by
  -- The interface is made from the members of the bundle, each bound to the instance.
  have hentry := OrderedMap.mem_of_mem_ofList (OrderedMap.mem_entries_of_get? h)
  obtain ⟨member, hmember, hpair⟩ := List.mem_filterMap.mp hentry
  obtain ⟨found, hfound, hnamed⟩ := Option.map_eq_some_iff.mp hpair
  obtain ⟨hname, rfl⟩ := Prod.mk.inj hnamed
  exact ⟨member, hmember, hname, Member.exists_of_handler? hfound⟩

/-- Every operation in the interface of an instance belongs to the instance. -/
theorem Instance.owner_of_interface {i : Instance} {name : String} {handler : Handler}
    (h : i.interface.get? name = some handler) : handler.owner = some i.owner := by
  obtain ⟨_, -, -, -, -, _, _, -, rfl⟩ := boundTo_of_interface h
  rfl

namespace Registry

/-- A batch answers to its names; every other name is as it was. -/
theorem get?_foldl_insert (destination : String) (source : Provenance)
    {handlers : List (String × Handler)} (h : (handlers.map Prod.fst).Nodup)
    (before : OrderedMap String Operation) (name : String) :
    ((handlers.map fun entry => (⟨destination, entry.1, entry.2, source⟩ : Operation)).foldl
        (fun operations op => operations.insert op.name op) before).get? name
      = ((OrderedMap.find name handlers).map (⟨destination, name, ·, source⟩)).or
          (before.get? name) := by
  induction handlers generalizing before with
  | nil => rfl
  | cons entry rest ih =>
    obtain ⟨hnew, hrest⟩ := List.nodup_cons.mp h
    rw [List.map_cons, List.foldl_cons, ih hrest, OrderedMap.find, OrderedMap.get?_insert]
    by_cases hname : entry.1 = name
    · -- The name does not come again.
      subst hname
      have hnone : OrderedMap.find entry.1 rest = none := by
        rw [← Option.not_isSome_iff_eq_none, OrderedMap.find_isSome_iff]
        exact hnew
      rw [hnone, if_pos rfl, if_pos rfl]
      rfl
    · rw [if_neg hname, if_neg (Ne.symm hname)]

/-- The operations of a type after a batch was installed. -/
theorem get?_installed (r : Registry) (destination : String) (handlers : OrderedMap String Handler)
    (source : Provenance) (other name : String) :
    (r.installed destination handlers.entries source).2.dispatch.get? other name
      = if other = destination then
          ((handlers.get? name).map (⟨destination, name, ·, source⟩)).or
            (r.dispatch.get? destination name)
        else r.dispatch.get? other name := by
  show ((r.dispatch.install destination _).2.operationsOf other).get? name = _
  rw [Dispatch.operationsOf_install]
  split
  · exact get?_foldl_insert destination source handlers.keys_nodup _ name
  · rfl

/-- The operations that a registration by name has installed are those of an instance: each belongs
to it, and on every other place of the table is what was there. -/
structure InstalledFrom (r r' : Registry) (destination name : String) (i : Instance) : Prop where
  operations : ∀ other operation, r'.dispatch.get? other operation
    = if other = destination then
        ((i.interface.get? operation).map (⟨destination, operation, ·, .named name⟩)).or
          (r.dispatch.get? destination operation)
      else r.dispatch.get? other operation
  owner : ∀ operation handler, i.interface.get? operation = some handler →
    handler.owner = some i.owner

variable {r r' : Registry} {w w' : World} {destination name : String} {count : Nat}

/-- **Whose operations a registration by name installs.** If it succeeds, they are those of the
instance that is made next of the blueprint that the name stands for, and that blueprint is composable
exactly if the name stands for itself or for another composable blueprint. The types, the blueprints,
the records in use and what the machine holds may be anything. -/
theorem composed_by_name
    (h : (r.register destination (.named name) : StateM World _).run w = ((.ok count, r'), w')) :
    ∃ composes blueprint, r.wrappers.standsFor w name = some composes ∧
      r.blueprints.byName.get? composes = some blueprint ∧
      InstalledFrom r r' destination name blueprint.next ∧
      count = blueprint.next.interface.entries.length ∧
      (blueprint.kind = .composable ↔
        composes = name ∨ r.blueprints.kind? composes = some .composable) := by
  rcases register_cases h with ⟨_, -, hcause, -⟩ |
    ⟨hgate, made, wrappers, blueprints, w₁, hmade, hend⟩
  · exact absurd hcause (by simp)
  rcases hend with ⟨_, -, hcause, -⟩ | ⟨i, rfl, hcount, rfl⟩
  · exact absurd hcause (by simp)
  -- An instance was made for the name, after the record of the name was looked up.
  rcases WrapperStore.materialize_cases hmade with ⟨_, hunit, -⟩ |
    ⟨_, result, hunit, hresolve, hmade⟩
  · exact absurd hunit (by simp)
  obtain rfl := BundleRef.named.inj hunit
  rcases hmade with ⟨_, -, herror, -⟩ | ⟨_, -, -, herror, -⟩ | ⟨composes, _, rfl, hinstance, hi⟩
  · exact absurd herror (by simp)
  · exact absurd herror (by simp)
  obtain rfl := Except.ok.inj hi
  obtain ⟨blueprint, hfound, rfl⟩ := Blueprints.exists_of_instantiate? hinstance
  have hkind : r.blueprints.kind? composes = some blueprint.kind := by
    rw [Blueprints.kind?, hfound]
    rfl
  refine ⟨composes, blueprint, WrapperStore.standsFor_of_resolve hresolve, hfound,
    ⟨?_, fun _ _ => Instance.owner_of_interface⟩, Except.ok.inj hcount, ?_⟩
  · exact get?_installed { r with wrappers := wrappers, blueprints := blueprints } destination _ _
  · constructor
    · exact fun hcomposable => .inr (by rw [hkind, hcomposable])
    · rintro (rfl | hcomposable)
      · -- The gate has asked for the kind of the name itself.
        have hname : r.blueprints.kind? composes = some .composable :=
          of_decide_eq_true (admits_of_gate hgate).2
        exact Option.some.inj (hkind.symm.trans hname)
      · exact Option.some.inj (hkind.symm.trans hcomposable)

/-- Where no records are kept, a name stands for itself: a greeter is registered. -/
theorem composed_by_name_greeter :
    ∃ r' w', ({ gallery with wrappers := .new none }.register "T" (.named "Greeter") :
        StateM World _).run (.fresh [] ⟨"tmp"⟩) = ((.ok 1, r'), w') ∧
      ∃ greeter, gallery.blueprints.byName.get? "Greeter" = some greeter ∧
        greeter.kind = .composable ∧
        InstalledFrom { gallery with wrappers := .new none } r' "T" "Greeter" greeter.next := by
  have hrun : ({ gallery with wrappers := .new none }.register "T" (.named "Greeter") :
      StateM World _).run (.fresh [] ⟨"tmp"⟩) = ((.ok 1, _), _) := rfl
  obtain ⟨composes, greeter, hstands, hfound, hfrom, -, hkind⟩ := composed_by_name hrun
  obtain rfl : "Greeter" = composes := Option.some.inj hstands
  exact ⟨_, _, hrun, greeter, hfound, hkind.mpr (.inl rfl), hfrom⟩

/-- The record for greeters, except that it names the concrete panel. -/
def misleading : ByteArray := (Json.toPrettyText (⟨"Greeter", "Panel", .composable⟩ : Wrapper)).toUTF8

/-- The instance that the operation of a name belongs to. -/
def ownerOf (r : Registry) (destination name : String) : Option Owner :=
  (r.dispatch.get? destination name).bind fun op => op.handler.owner

/-- **A concrete blueprint can be composed by name.** The record for a composable name may name a
concrete blueprint; then the registration succeeds, and what it installs belongs to an instance of
the concrete blueprint and of no composable one. -/
theorem composed_concrete :
    ∃ r' w', (gallery.register "T" (.named "Greeter") : StateM World _).run
        (recordHolder "Greeter" misleading) = ((.ok 1, r'), w') ∧
      (∃ panel, gallery.blueprints.byName.get? "Panel" = some panel ∧ panel.kind = .concrete ∧
        ownerOf r' "T" "paint" = some panel.next.owner) ∧
      ∀ name blueprint, gallery.blueprints.byName.get? name = some blueprint →
        blueprint.kind = .composable → ownerOf r' "T" "paint" ≠ some blueprint.next.owner := by
  rcases hrun : (gallery.register "T" (.named "Greeter") : StateM World _).run
    (recordHolder "Greeter" misleading) with ⟨⟨result, r'⟩, w'⟩
  have houtcome : ((gallery.register "T" (.named "Greeter") : StateM World _).run
        (recordHolder "Greeter" misleading)).1.1.toOption = some 1 ∧
      ownerOf ((gallery.register "T" (.named "Greeter") : StateM World _).run
        (recordHolder "Greeter" misleading)).1.2 "T" "paint" = some ⟨.made 1 1, "Panel"⟩ := by
    decide +kernel
  rw [hrun] at houtcome
  -- A registry holds functions and cannot be compared, so the run is told by what it can be asked.
  obtain ⟨hresult, howner⟩ := houtcome
  obtain rfl : result = .ok 1 := by
    cases result with
    | error _ => exact absurd hresult (by simp [Except.toOption])
    | ok count => rw [Option.some.inj hresult]
  refine ⟨r', w', rfl, ⟨_, rfl, rfl, howner⟩, fun name blueprint hfound hcomposable => ?_⟩
  rw [howner]
  -- The gallery has two blueprints: the greeter made no instance, and the panel is concrete.
  have hentry := OrderedMap.mem_entries_of_get? hfound
  rcases List.mem_cons.mp hentry with heq | hentry
  · obtain ⟨-, rfl⟩ := Prod.mk.inj heq
    decide
  · obtain ⟨-, rfl⟩ := Prod.mk.inj (List.mem_singleton.mp hentry)
    exact absurd hcomposable (by decide)

end Registry

end Graft
