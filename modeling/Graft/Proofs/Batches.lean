/-
A unit is registered as its operations are one by one.

A unit that is registered comes to the table as one batch, and to the ledger as one record after the
other. Operations may as well be registered on their own, in the order in which the interface of the
unit lists them. Either way leads to twins: the batch is a fold over the operations, so it can be cut
after the first one, and a batch of one operation is what a registration of that operation installs. What
the two ways log is different, and so is the provenance that they record.

A second registration of the same unit finds every name of the interface with the operation that it
installs, so the table stays as it is, while an enabled ledger takes as many records again.

The main statement is `Registry.one_by_one`.
-/
import Graft.Proofs.Composition
import Graft.Proofs.LatestBindings
import Graft.Proofs.Twins

set_option autoImplicit false

namespace Graft

/-! ## 1. Ledgers that record the same -/

/-- The registration as if it had been one of a handler on its own. -/
def Registration.unsourced (r : Registration) : Registration := { r with source := .handler }

namespace Ledger

/-- Ledgers of one mode that hold the same registrations, numbers included, but for their
provenance. -/
structure SameButSource (ledger ledger' : Ledger) : Prop where
  mode : ledger'.mode = ledger.mode
  log : ledger'.log.map Registration.unsourced = ledger.log.map Registration.unsourced

variable {ledger ledger' : Ledger}

theorem SameButSource.size (h : SameButSource ledger ledger') : ledger'.size = ledger.size := by
  have hlength := congrArg List.length h.log
  rwa [List.length_map, List.length_map] at hlength

theorem lasting_sameButSource : Lasting SameButSource where
  record ledger ledger' destination name signature source source' h := by
    cases hmode : ledger.mode with
    | disabled =>
      unfold record
      rw [h.mode, hmode]
      exact h
    | enabled =>
      have hmode' : ledger'.mode = .enabled := h.mode.trans hmode
      refine ⟨by rw [mode_record, mode_record, h.mode], ?_⟩
      -- The next number is the length of the log.
      have hnumber : ledger'.log.length = ledger.log.length := h.size
      rw [log_record hmode, log_record hmode', List.map_append, List.map_append, h.log]
      simp only [List.map_cons, List.map_nil, nextRegistration, Registration.unsourced, hnumber]
  reset _ _ h := ⟨h.mode, rfl⟩

/-- The registrations of a destination by name, without their provenance. -/
theorem SameButSource.named (h : SameButSource ledger ledger') (destination : String) :
    (ledger'.bindings destination).map (fun r => (r.name, r.unsourced))
      = (ledger.bindings destination).map (fun r => (r.name, r.unsourced)) := by
  have hlog (l : Ledger) : (l.bindings destination).map (fun r => (r.name, r.unsourced))
      = ((l.log.map Registration.unsourced).filter (fun r => r.destination = destination)).map
          (fun r => (r.name, r)) := by
    rw [List.filter_map, List.map_map]
    rfl
  rw [hlog, hlog, h.log]

theorem SameButSource.latest? (h : SameButSource ledger ledger') (destination name : String) :
    (ledger'.latest? destination name).map Registration.unsourced
      = (ledger.latest? destination name).map Registration.unsourced := by
  rw [latest?_eq_get?, latest?_eq_get?, ← OrderedMap.get?_mapValues, ← OrderedMap.get?_mapValues,
    latestMap, latestMap, mapValues_latestOf, mapValues_latestOf, h.named]

theorem SameButSource.latestBindings (h : SameButSource ledger ledger') (destination : String) :
    (ledger'.latestBindings destination).map Registration.unsourced
      = (ledger.latestBindings destination).map Registration.unsourced := by
  rw [map_latestBindings, map_latestBindings, h.named]

end Ledger

/-! ## 2. A batch in parts -/

/-- A batch of operations that are there already changes nothing. -/
theorem foldl_insert_of_get? {batch : List Operation} {operations : OrderedMap String Operation}
    (h : ∀ op ∈ batch, operations.get? op.name = some op) :
    batch.foldl (fun operations op => operations.insert op.name op) operations = operations := by
  induction batch with
  | nil => rfl
  | cons op rest ih =>
    obtain ⟨hop, hrest⟩ := List.forall_mem_cons.mp h
    rw [List.foldl_cons, OrderedMap.insert_of_get? hop, ih hrest]

namespace Registry

variable {Q : Ledger → Ledger → Prop} {r r' : Registry} {destination : String}

/-- A batch may be cut after its first operation. -/
theorem Twin.of_cons {entry : String × Handler} {rest : List (String × Handler)}
    {source : Provenance}
    (h : Twin Q ((r.installed destination [entry] source).2.installed destination rest source).2 r') :
    Twin Q (r.installed destination (entry :: rest) source).2 r' where
  catalog := h.catalog
  blueprints := h.blueprints
  wrappers := h.wrappers
  operations other := by
    rw [h.operations, unsourced_installed, unsourced_installed, unsourced_installed,
      unsourced_installed]
    split
    · rw [if_pos rfl]
      rfl
    · rfl
  ledger := h.ledger

/-- The batch of an interface changes nothing where it was installed before. -/
theorem operationsOf_installed_twice (r : Registry) (destination : String)
    (handlers : OrderedMap String Handler) (source : Provenance) (other : String) :
    ((r.installed destination handlers.entries source).2.installed destination handlers.entries
        source).2.dispatch.operationsOf other
      = (r.installed destination handlers.entries source).2.dispatch.operationsOf other := by
  unfold installed
  dsimp only
  rw [Dispatch.operationsOf_install]
  split
  · next hother =>
    subst hother
    -- The names of an interface are different, so none of its operations has replaced another one.
    apply foldl_insert_of_get?
    intro op hop
    obtain ⟨entry, hentry, rfl⟩ := List.mem_map.mp hop
    rw [Dispatch.operationsOf_install, if_pos rfl]
    show OrderedMap.get? _ entry.1 = _
    rw [get?_foldl_insert other source handlers.keys_nodup,
      OrderedMap.find_of_mem handlers.keys_nodup hentry]
    rfl
  · rfl

theorem twin_installed_twice (r : Registry) (destination : String)
    (handlers : OrderedMap String Handler) (source : Provenance) :
    Twin (fun _ _ => True) (r.installed destination handlers.entries source).2
      ((r.installed destination handlers.entries source).2.installed destination handlers.entries
        source).2 :=
  ⟨rfl, rfl, rfl, fun other => by rw [operationsOf_installed_twice], trivial⟩

theorem mode_foldl_recordOne (destination : String) (source : Provenance)
    (handlers : List (String × Handler)) (ledger : Ledger) :
    (handlers.foldl (recordOne destination source) ledger).mode = ledger.mode := by
  induction handlers generalizing ledger with
  | nil => rfl
  | cons entry rest ih =>
    rw [List.foldl_cons, ih, recordOne, Ledger.mode_record]

/-- An enabled ledger takes one record for each handler of a batch. -/
theorem size_foldl_recordOne (destination : String) (source : Provenance)
    (handlers : List (String × Handler)) {ledger : Ledger} (h : ledger.mode = .enabled) :
    (handlers.foldl (recordOne destination source) ledger).size = ledger.size + handlers.length := by
  induction handlers generalizing ledger with
  | nil => rfl
  | cons entry rest ih =>
    have hmode : (recordOne destination source ledger entry).mode = .enabled := by
      rw [recordOne, Ledger.mode_record, h]
    have hone : (recordOne destination source ledger entry).size = ledger.size + 1 := by
      rw [recordOne, Ledger.size, Ledger.log_record h, List.length_append, List.length_singleton]
      rfl
    rw [List.foldl_cons, ih hmode, hone, List.length_cons]
    omega

theorem foldl_recordOne_of_disabled (destination : String) (source : Provenance)
    (handlers : List (String × Handler)) {ledger : Ledger} (h : ledger.mode = .disabled) :
    handlers.foldl (recordOne destination source) ledger = ledger := by
  induction handlers with
  | nil => rfl
  | cons entry rest ih =>
    have hone : recordOne destination source ledger entry = ledger := by
      unfold recordOne Ledger.record
      rw [h]
    rw [List.foldl_cons, hone, ih]

/-! ## 3. One by one -/

section

variable {m : Type → Type} [Monad m] [Host m]

/-- Registers handlers on their own, one after the other, and gives what came of each. -/
def registerEach (registry : Registry) (destination : String) :
    List (String × Handler) → m (List (Except GateError Unit) × Registry)
  | [] => pure ([], registry)
  | (name, handler) :: rest => do
    let (result, registry) ← registry.registerOperation destination name handler
    let (results, registry) ← registry.registerEach destination rest
    return (result :: results, registry)

end

variable {σ : Type} [Host (StateM σ)] {alike : σ → σ → Prop} {s s' : σ}

/-- The run lemma: the handlers of a batch lead to a twin of what the batch leads to. The induction is
on the batch, which is cut after its first handler. -/
theorem run_registerEach (hquiet : Unlogged alike) (hQ : Ledger.Lasting Q) (h : Twin Q r r')
    (hs : alike s s') (hcheck : r'.catalog.check destination = .ok ()) (source : Provenance)
    (handlers : List (String × Handler)) :
    ∃ parts t, (r'.registerEach destination handlers : StateM σ _).run s'
        = ((List.replicate handlers.length (.ok ()), parts), t) ∧
      Twin Q (r.installed destination handlers source).2 parts ∧ alike s t := by
  induction handlers generalizing r r' s s' with
  | nil =>
    refine ⟨r', s', rfl, ⟨h.catalog, h.blueprints, h.wrappers, fun other => ?_, h.ledger⟩, hs⟩
    rw [unsourced_installed, h.operations]
    split
    · next hother =>
      subst hother
      rfl
    · rfl
  | cons entry rest ih =>
    -- The first operation makes twins out of twins, with whatever provenance on the other side.
    obtain ⟨t, hfirst, ht⟩ := run_registerOperation hquiet hcheck entry.1 entry.2 s'
    have htwin := h.installed hQ destination [entry] source .handler
    obtain ⟨parts, u, hrest, hparts, hu⟩ := ih htwin (hquiet.equivalence.trans hs ht) hcheck
    refine ⟨parts, u, ?_, hparts.of_cons, hu⟩
    rw [registerEach, run_bind, hfirst]
    dsimp only
    rw [run_bind, hrest]
    rfl

theorem check_of_admits (h : r.catalog.admits destination = true) :
    r.catalog.check destination = .ok () := by
  rw [Catalog.check, h]
  rfl

/-- An instance that is registered on a type that takes operations is installed as it is. -/
theorem run_register_live (hquiet : Unlogged alike) (h : r.catalog.admits destination = true)
    (unit : Instance) (s : σ) :
    ∃ t, (r.register destination (.live unit) : StateM σ _).run s
        = ((.ok unit.interface.entries.length,
            (r.installed destination unit.interface.entries (.live unit.bundle.name)).2), t) ∧
      alike s t := by
  have hcheck := check_of_admits h
  have hgate : r.gate destination (.live unit) = .ok () := by
    rw [gate, hcheck]
    rfl
  obtain ⟨t, hinstall, ht⟩ := run_install hquiet hcheck unit.interface.entries
    (.live unit.bundle.name) s
  refine ⟨t, ?_, ht⟩
  simp only [register, hgate, run_bind, WrapperStore.materialize, run_pure, provenance, hinstall]

/-! ## 4. What can be told of two registries -/

/-- Two registries, each with its machine, answer alike: they list the same names, find the same
operations but for where they came from, and tell an application the same for as long as it asks. -/
structure AnswersAlike (alike : σ → σ → Prop) (o o' : Registry × σ) : Prop where
  names : ∀ destination, o'.1.dispatch.names destination = o.1.dispatch.names destination
  contains : ∀ destination name,
    o'.1.dispatch.contains destination name = o.1.dispatch.contains destination name
  operation : ∀ destination name, (o'.1.dispatch.get? destination name).map Operation.unsourced
    = (o.1.dispatch.get? destination name).map Operation.unsourced
  invoke : ∀ steps destination name receiver arguments,
    ((o'.1.invoke steps destination name receiver arguments : StateM σ _).run o'.2).1.1
      = ((o.1.invoke steps destination name receiver arguments : StateM σ _).run o.2).1.1
  /-- What others do to the machine meanwhile must not depend on what was logged. -/
  replies : ∀ turns : List (Turn σ),
    (∀ turn ∈ turns, ∀ t t', alike t t' → alike (turn.meanwhile t) (turn.meanwhile t')) →
      replies turns o'.1 o'.2 = replies turns o.1 o.2

theorem Twin.answersAlike (hquiet : Unlogged alike) (hQ : Ledger.Lasting Q) (h : Twin Q r r')
    (hs : alike s s') : AnswersAlike alike (r, s) (r', s') where
  names := h.names
  contains := h.contains
  operation := h.get?
  invoke steps destination name receiver arguments :=
    (matched_invoke hquiet hQ h hs steps destination name receiver arguments).returned
  replies := replies_eq_of_twin hquiet hQ h hs

/-- Two ledgers show the same but for the provenance: the latest registrations and all of them, with
their numbers. -/
structure ShowAlike (ledger ledger' : Ledger) : Prop where
  latest : ∀ destination name, (ledger'.latest? destination name).map Registration.unsourced
    = (ledger.latest? destination name).map Registration.unsourced
  latestBindings : ∀ destination,
    (ledger'.latestBindings destination).map Registration.unsourced
      = (ledger.latestBindings destination).map Registration.unsourced
  size : ledger'.size = ledger.size
  log : ledger'.log.map Registration.unsourced = ledger.log.map Registration.unsourced

/-! ## 5. Two ways to register a unit -/

/-- A unit is registered as a whole, or its operations one by one, and then once more as a whole. -/
structure OneByOne (alike : σ → σ → Prop) (destination : String) (unit : Instance)
    (start whole parts again : Registry × σ) : Prop where
  /-- The number of operations is returned, ... -/
  registered : (start.1.register destination (.live unit) : StateM σ _).run start.2
    = ((.ok unit.interface.entries.length, whole.1), whole.2)
  /-- ... which is the number of registrations one by one, and all of these succeed. -/
  each : (start.1.registerEach destination unit.interface.entries : StateM σ _).run start.2
    = ((List.replicate unit.interface.entries.length (.ok ()), parts.1), parts.2)
  answers : AnswersAlike alike whole parts
  shows : ShowAlike whole.1.ledger parts.1.ledger
  /-- The same registration succeeds again with the same number, ... -/
  repeated : (whole.1.register destination (.live unit) : StateM σ _).run whole.2
    = ((.ok unit.interface.entries.length, again.1), again.2)
  /-- ... changes no operation, with its provenance as well, and no answer, ... -/
  kept : ∀ other, again.1.dispatch.operationsOf other = whole.1.dispatch.operationsOf other
  unchanged : AnswersAlike alike whole again
  /-- ... and adds as many records to an enabled ledger, and none to a disabled one. -/
  grown : start.1.ledger.mode = .enabled →
    again.1.ledger.size = whole.1.ledger.size + unit.interface.entries.length
  still : start.1.ledger.mode = .disabled → again.1.ledger = whole.1.ledger

/-- **Registering a unit is registering its operations one by one**, in any registry and on any type
that takes operations, whatever the members of the unit are, on machines that do not tell what was
logged. -/
theorem one_by_one (hquiet : Unlogged alike) (r : Registry) (s : σ) {destination : String}
    (h : r.catalog.admits destination = true) (unit : Instance) :
    ∃ whole parts again, OneByOne alike destination unit (r, s) whole parts again := by
  have hself : Twin Ledger.SameButSource r r := ⟨rfl, rfl, rfl, fun _ => rfl, rfl, rfl⟩
  obtain ⟨t, hwhole, ht⟩ := run_register_live hquiet h unit s
  obtain ⟨parts, u, hparts, htwin, hu⟩ := run_registerEach hquiet Ledger.lasting_sameButSource hself
    (hquiet.equivalence.refl s) (check_of_admits h) (.live unit.bundle.name) unit.interface.entries
  obtain ⟨v, hagain, hv⟩ := run_register_live hquiet
    (r := (r.installed destination unit.interface.entries (.live unit.bundle.name)).2) h unit t
  -- Each of the three registries is told by its run, and so are the relations between them.
  refine ⟨(_, t), (parts, u), (_, v), hwhole, hparts, ?answers, ?shows, hagain, ?kept, ?unchanged,
    ?grown, ?still⟩
  case answers =>
    exact htwin.answersAlike hquiet Ledger.lasting_sameButSource
      (hquiet.of_keeps (hquiet.equivalence.refl s) ht hu)
  case shows =>
    exact ⟨htwin.ledger.latest?, htwin.ledger.latestBindings, htwin.ledger.size, htwin.ledger.log⟩
  case kept => exact operationsOf_installed_twice r destination unit.interface _
  case unchanged =>
    exact (twin_installed_twice r destination unit.interface _).answersAlike hquiet
      Ledger.lasting_true hv
  case grown =>
    intro henabled
    exact size_foldl_recordOne _ _ _ ((mode_foldl_recordOne _ _ _ _).trans henabled)
  case still =>
    intro hdisabled
    exact foldl_recordOne_of_disabled _ _ _ ((mode_foldl_recordOne _ _ _ _).trans hdisabled)

/-- A unit with an operation of a name that is declared twice. -/
theorem one_by_one_gallery :
    ∃ whole parts again, OneByOne World.SameButEvents "T" ⟨.given 0, ⟨"Greeter",
        (oneOperation "Greeter" "hello").members ++ (oneOperation "Greeter" "hello").members⟩⟩
      (gallery, World.fresh [] ⟨"tmp"⟩) whole parts again :=
  one_by_one World.unlogged gallery (World.fresh [] ⟨"tmp"⟩) rfl _

/-- A disabled ledger takes no records, also if a unit is registered again. -/
theorem disabled_ledger_still :
    let start : Registry := { gallery with ledger := .new .disabled }
    let unit : Instance := ⟨.given 0, oneOperation "Greeter" "hello"⟩
    let whole := (start.register "T" (.live unit) : StateM World _).run (World.fresh [] ⟨"tmp"⟩)
    let again := (whole.1.2.register "T" (.live unit) : StateM World _).run whole.2
    start.catalog.admits "T" = true ∧ whole.1.1 = .ok 1 ∧ again.1.1 = .ok 1 ∧
      again.1.2.ledger.size ≠ whole.1.2.ledger.size + 1 :=
  ⟨rfl, rfl, rfl, by decide⟩

end Registry

end Graft
