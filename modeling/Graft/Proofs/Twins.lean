/-
Registries that differ in nothing but where their operations came from.

Where an operation came from is told to the log and to the ledger, and nothing that a registry answers
depends on it. Two registries are twins if their tables are the same but for that; their ledgers may
differ in any way that records and resets keep up, since no request reads a ledger. Whatever twins are
asked, they answer alike and stay twins (`Registry.matched_serve`), through calls, registrations within
calls, failures and panics.

What they log is different, though. So they cannot be compared on one machine, but on machines that are
alike, in a way that nobody can tell what was logged (`Unlogged`). On these the services of the machine
return the same, and with them every program that is made of services.
-/
import Graft.Proofs.Agreement
import Graft.Proofs.Moments
import Graft.World

set_option autoImplicit false

namespace Graft

section

variable {σ α β ε : Type} {alike : σ → σ → Prop}

/-! ## 1. Machines that are alike -/

/-- A program that cannot tell machines apart that are alike: it returns the same on both and leaves them
alike. -/
def Blind (alike : σ → σ → Prop) (p : StateM σ α) : Prop :=
  ∀ ⦃s s'⦄, alike s s' → (p.run s').1 = (p.run s).1 ∧ alike (p.run s).2 (p.run s').2

theorem Blind.pure (a : α) : Blind alike (pure a) := fun _ _ h => ⟨rfl, h⟩

theorem Blind.bind {x : StateM σ α} {f : α → StateM σ β} (hx : Blind alike x)
    (hf : ∀ a, Blind alike (f a)) : Blind alike (x >>= f) := by
  intro s s' h
  obtain ⟨hreturned, hleft⟩ := hx h
  rw [run_bind, run_bind, hreturned]
  exact hf _ hleft

theorem Blind.bindExcept {x : ExceptT ε (StateM σ) α} {f : α → ExceptT ε (StateM σ) β}
    (hx : Blind alike x.run) (hf : ∀ a, Blind alike (f a).run) : Blind alike (x >>= f).run := by
  rw [ExceptT.run_bind]
  refine Blind.bind hx fun result => ?_
  cases result with
  | ok a => exact hf a
  | error error => exact Blind.pure _

theorem Blind.lift {x : StateM σ α} (hx : Blind alike x) :
    Blind alike (ExceptT.lift x : ExceptT ε (StateM σ) α).run :=
  Blind.bind hx fun _ => Blind.pure _

theorem Keeps.forM {p : α → StateM σ PUnit} (halike : Composable alike)
    (hp : ∀ a, Keeps alike (p a)) (items : List α) : Keeps alike (items.forM p) := by
  induction items with
  | nil => exact Keeps.pure halike _
  | cons a rest ih => exact Keeps.bind halike (hp a) fun _ => ih

variable [Host (StateM σ)]

/-- Machines are alike in a way that no request for an instance can tell: none of the services that are
used to have a record can tell such machines apart. -/
structure Interchangeable (alike : σ → σ → Prop) : Prop where
  present : ∀ path, Blind alike (Host.present path)
  readBytes : ∀ path, Blind alike (Host.readBytes path)
  createDirectories : ∀ path, Blind alike (Host.createDirectories path)
  createFile : ∀ path content, Blind alike (Host.createFile path content)
  log : ∀ event, Blind alike (Host.log event)

/-- Machines are alike in a way that nobody can tell from the services of the machine what was logged:
logging leads to a machine that is alike, and no other service can tell such machines apart. -/
structure Unlogged (alike : σ → σ → Prop) : Prop where
  equivalence : Equivalence alike
  log : ∀ event s, alike s ((Host.log event : StateM σ _).run s).2
  present : ∀ path, Blind alike (Host.present path)
  readBytes : ∀ path, Blind alike (Host.readBytes path)
  list : ∀ path, Blind alike (Host.list path)
  createDirectories : ∀ path, Blind alike (Host.createDirectories path)
  createFile : ∀ path content, Blind alike (Host.createFile path content)
  removeFile : ∀ path, Blind alike (Host.removeFile path)

namespace Unlogged

theorem composable (h : Unlogged alike) : Composable alike :=
  ⟨h.equivalence.refl, h.equivalence.trans⟩

theorem keeps_log (h : Unlogged alike) (event : Event) :
    Keeps alike (Host.log event : StateM σ Unit) := h.log event

/-- A program that only logs on either machine leaves machines alike. -/
theorem of_keeps (h : Unlogged alike) {s s' t t' : σ} (hs : alike s s') (ht : alike s t)
    (ht' : alike s' t') : alike t t' :=
  h.equivalence.trans (h.equivalence.symm ht) (h.equivalence.trans hs ht')

theorem blind_log (h : Unlogged alike) (event : Event) :
    Blind alike (Host.log event : StateM σ Unit) :=
  fun s s' hs => ⟨rfl, h.of_keeps hs (h.log event s) (h.log event s')⟩

theorem interchangeable (h : Unlogged alike) : Interchangeable alike where
  present := h.present
  readBytes := h.readBytes
  createDirectories := h.createDirectories
  createFile := h.createFile
  log := h.blind_log

end Unlogged

/-! ## 2. Wrapper records -/

omit [Host (StateM σ)] in
theorem WrapperStore.blind_guardIo (path : Path) {action : StateM σ (Except FileError α)}
    (haction : Blind alike action) :
    Blind alike (WrapperStore.guardIo path action : ExceptT WrapperError (StateM σ) α).run :=
  Blind.bind haction fun _ => Blind.pure _

open WrapperStore (blind_guardIo)

namespace Interchangeable

variable (h : Interchangeable alike)

include h

theorem blind_writeOnce (path : Path) (wrapper : Wrapper) :
    Blind alike (WrapperStore.writeOnce path wrapper : ExceptT WrapperError (StateM σ) Unit).run := by
  refine Blind.bindExcept (blind_guardIo path (h.createDirectories _)) fun _ => ?_
  refine Blind.bindExcept (Blind.lift (h.createFile _ _)) fun written => ?_
  split
  · exact Blind.lift (h.log _)
  · exact Blind.lift (h.log _)
  · exact Blind.pure _

theorem blind_load (blueprints : Blueprints) (name : String) (path : Path) :
    Blind alike
      (WrapperStore.load blueprints name path : ExceptT WrapperError (StateM σ) Wrapper).run := by
  have hwritten : Blind alike (WrapperStore.ensureWritten blueprints name path :
      ExceptT WrapperError (StateM σ) Unit).run := by
    refine Blind.bindExcept (Blind.lift (h.present path)) fun found => ?_
    cases found with
    | true => exact Blind.pure _
    | false =>
      rw [if_neg Bool.false_ne_true]
      cases blueprints.kind? name with
      | some kind => exact h.blind_writeOnce path _
      | none => exact Blind.pure _
  refine Blind.bindExcept hwritten fun _ => ?_
  refine Blind.bindExcept (blind_guardIo path (h.readBytes path)) fun bytes => ?_
  split
  · exact Blind.pure _
  · split <;> exact Blind.pure _

theorem blind_materialize (store : WrapperStore) (blueprints : Blueprints) (unit : BundleRef) :
    Blind alike (store.materialize blueprints unit : StateM σ _) := by
  have hresolve (name : String) : Blind alike (store.resolve blueprints name : StateM σ _) := by
    unfold WrapperStore.resolve
    split
    · exact Blind.pure _
    · split
      · exact Blind.pure _
      · refine Blind.bind (h.blind_load blueprints name _) fun loaded => ?_
        cases loaded <;> exact Blind.pure _
  cases unit with
  | live made => exact Blind.pure _
  | named name =>
    refine Blind.bind (hresolve name) fun resolved => ?_
    obtain ⟨error | composes, store⟩ := resolved
    · exact Blind.pure _
    · dsimp only
      split <;> exact Blind.pure _

end Interchangeable

namespace Unlogged

variable (h : Unlogged alike)

include h

theorem blind_flush (store : WrapperStore) : Blind alike (store.flush : StateM σ _) := by
  have hremove (directory : Path) (names : List String) : Blind alike
      (WrapperStore.removeRecords directory names : ExceptT WrapperError (StateM σ) Nat).run := by
    induction names with
    | nil => exact Blind.pure _
    | cons name rest ih =>
      unfold WrapperStore.removeRecords
      split
      · refine Blind.bindExcept (blind_guardIo _ (h.removeFile _)) fun _ => ?_
        exact Blind.bindExcept ih fun _ => Blind.pure _
      · exact ih
  have hflush (directory : Path) : Blind alike
      (WrapperStore.flushDirectory directory : ExceptT WrapperError (StateM σ) Nat).run := by
    refine Blind.bindExcept (Blind.lift (h.list directory)) fun listed => ?_
    split
    · exact Blind.pure _
    · exact Blind.pure _
    · refine Blind.bindExcept (hremove directory _) fun _ => ?_
      exact Blind.bindExcept (Blind.lift (h.blind_log _)) fun _ => Blind.pure _
  unfold WrapperStore.flush
  split
  · exact Blind.pure _
  · exact Blind.bind (hflush _) fun _ => Blind.pure _

end Unlogged

end

/-! ## 3. The machine that is a value -/

namespace World

/-- Machines that hold the same files, whatever was logged. -/
structure SameButEvents (w w' : World) : Prop where
  tree : w'.tree = w.tree
  cwd : w'.cwd = w.cwd
  temporary : w'.temporary = w.temporary

/-- A change of the tree that depends on the tree and the working directory. -/
theorem blind_change (f : FileTree.Location → FileTree → Except FileError FileTree) :
    Blind SameButEvents (fun w => change (f w.cwd) w : StateM World _) := by
  rintro ⟨tree, cwd, temporary, events⟩ ⟨tree', cwd', temporary', events'⟩ ⟨htree, hcwd, htemporary⟩
  dsimp only at htree hcwd htemporary
  subst htree hcwd htemporary
  show (change (f cwd') ⟨tree', cwd', temporary', events'⟩).1
      = (change (f cwd') ⟨tree', cwd', temporary', events⟩).1 ∧
    SameButEvents (change (f cwd') ⟨tree', cwd', temporary', events⟩).2
      (change (f cwd') ⟨tree', cwd', temporary', events'⟩).2
  unfold change
  dsimp only
  cases f cwd' tree' <;> exact ⟨rfl, rfl, rfl, rfl⟩

theorem unlogged : Unlogged SameButEvents where
  equivalence :=
    ⟨fun _ => ⟨rfl, rfl, rfl⟩, fun h => ⟨h.tree.symm, h.cwd.symm, h.temporary.symm⟩,
      fun h h' => ⟨h'.tree.trans h.tree, h'.cwd.trans h.cwd, h'.temporary.trans h.temporary⟩⟩
  log _ _ := ⟨rfl, rfl, rfl⟩
  present path w w' h := ⟨by
    show w'.tree.present w'.cwd path = w.tree.present w.cwd path
    rw [h.tree, h.cwd], h⟩
  readBytes path w w' h := ⟨by
    show w'.tree.readBytes w'.cwd path = w.tree.readBytes w.cwd path
    rw [h.tree, h.cwd], h⟩
  list path w w' h := ⟨by
    show w'.tree.list w'.cwd path = w.tree.list w.cwd path
    rw [h.tree, h.cwd], h⟩
  createDirectories path w w' h := by
    show (w'.tree.createDirectories w'.cwd path).1 = (w.tree.createDirectories w.cwd path).1 ∧
      SameButEvents { w with tree := (w.tree.createDirectories w.cwd path).2 }
        { w' with tree := (w'.tree.createDirectories w'.cwd path).2 }
    rw [h.tree, h.cwd]
    exact ⟨rfl, rfl, rfl, h.temporary⟩
  createFile path content := blind_change fun cwd tree => tree.createFile cwd path content
  removeFile path := blind_change fun cwd tree => tree.removeFile cwd path

end World

/-! ## 4. Twins -/

/-- The operation as if it had been registered on its own. -/
def Operation.unsourced (op : Operation) : Operation := { op with source := .handler }

/-- A relation of ledgers that is kept up if both record the same, whatever the provenance, or both are
reset. -/
structure Ledger.Lasting (Q : Ledger → Ledger → Prop) : Prop where
  record : ∀ ledger ledger' destination name signature source source', Q ledger ledger' →
    Q (ledger.record destination name signature source).2
      (ledger'.record destination name signature source').2
  reset : ∀ ledger ledger', Q ledger ledger' → Q ledger.reset ledger'.reset

/-- Any two ledgers are related. -/
theorem Ledger.lasting_true : Lasting fun _ _ => True :=
  ⟨fun _ _ _ _ _ _ _ _ => trivial, fun _ _ _ => trivial⟩

namespace Registry

/-- Registries that are the same but for where their operations came from, and but for their ledgers,
which are related. A type without operations need not be in the table. -/
structure Twin (Q : Ledger → Ledger → Prop) (r r' : Registry) : Prop where
  catalog : r'.catalog = r.catalog
  blueprints : r'.blueprints = r.blueprints
  wrappers : r'.wrappers = r.wrappers
  operations : ∀ destination,
    (r'.dispatch.operationsOf destination).mapValues Operation.unsourced
      = (r.dispatch.operationsOf destination).mapValues Operation.unsourced
  ledger : Q r.ledger r'.ledger

variable {Q : Ledger → Ledger → Prop} {r r' : Registry}

theorem Twin.names (h : Twin Q r r') (destination : String) :
    r'.dispatch.names destination = r.dispatch.names destination := by
  have hkeys := congrArg OrderedMap.keys (h.operations destination)
  rwa [OrderedMap.keys_mapValues, OrderedMap.keys_mapValues] at hkeys

theorem Twin.get? (h : Twin Q r r') (destination name : String) :
    (r'.dispatch.get? destination name).map Operation.unsourced
      = (r.dispatch.get? destination name).map Operation.unsourced := by
  have hfound := congrArg (OrderedMap.get? · name) (h.operations destination)
  rwa [OrderedMap.get?_mapValues, OrderedMap.get?_mapValues] at hfound

theorem Twin.contains (h : Twin Q r r') (destination name : String) :
    r'.dispatch.contains destination name = r.dispatch.contains destination name := by
  have hsome := congrArg Option.isSome (h.get? destination name)
  rwa [Option.isSome_map, Option.isSome_map] at hsome

/-- A batch on a table without provenances. -/
def overwritten (destination : String) (handlers : List (String × Handler))
    (before : OrderedMap String Operation) : OrderedMap String Operation :=
  handlers.foldl (fun operations entry =>
    operations.insert entry.1 ⟨destination, entry.1, entry.2, .handler⟩) before

theorem unsourced_installed (r : Registry) (destination : String)
    (handlers : List (String × Handler)) (source : Provenance) (other : String) :
    ((r.installed destination handlers source).2.dispatch.operationsOf other).mapValues
        Operation.unsourced
      = if other = destination then overwritten destination handlers
          ((r.dispatch.operationsOf destination).mapValues Operation.unsourced)
        else (r.dispatch.operationsOf other).mapValues Operation.unsourced := by
  unfold installed
  dsimp only
  rw [Dispatch.operationsOf_install]
  split
  · generalize r.dispatch.operationsOf destination = operations
    unfold overwritten
    induction handlers generalizing operations with
    | nil => rfl
    | cons entry rest ih =>
      rw [List.map_cons, List.foldl_cons, ih, OrderedMap.mapValues_insert, List.foldl_cons]
      rfl
  · rfl

theorem lasting_foldl_recordOne (hQ : Ledger.Lasting Q) (destination : String)
    (source source' : Provenance) (handlers : List (String × Handler)) {ledger ledger' : Ledger}
    (h : Q ledger ledger') :
    Q (handlers.foldl (recordOne destination source) ledger)
      (handlers.foldl (recordOne destination source') ledger') := by
  induction handlers generalizing ledger ledger' with
  | nil => exact h
  | cons entry rest ih => exact ih (hQ.record _ _ _ _ _ _ _ h)

/-- Twins stay twins if both install a batch, wherever it came from. -/
theorem Twin.installed (hQ : Ledger.Lasting Q) (h : Twin Q r r') (destination : String)
    (handlers : List (String × Handler)) (source source' : Provenance) :
    Twin Q (r.installed destination handlers source).2
      (r'.installed destination handlers source').2 where
  catalog := h.catalog
  blueprints := h.blueprints
  wrappers := h.wrappers
  operations other := by
    rw [unsourced_installed, unsourced_installed, h.operations, h.operations]
  ledger := lasting_foldl_recordOne hQ destination source source' handlers h.ledger

theorem Twin.reset (hQ : Ledger.Lasting Q) (h : Twin Q r r') : Twin Q r.reset r'.reset :=
  ⟨h.catalog, h.blueprints, h.wrappers, fun _ => rfl, hQ.reset _ _ h.ledger⟩

theorem Twin.declare (h : Twin Q r r') (name : String) (extensible : Bool) :
    Twin Q (r.declare name extensible) (r'.declare name extensible) :=
  ⟨congrArg (Catalog.declare · name extensible) h.catalog, h.blueprints, h.wrappers, h.operations,
    h.ledger⟩

theorem Twin.define (h : Twin Q r r') (name : String) (kind : Blueprint.Kind)
    (make : Nat → Bundle) : Twin Q (r.define name kind make) (r'.define name kind make) :=
  ⟨h.catalog, congrArg (Blueprints.define · name kind make) h.blueprints, h.wrappers, h.operations,
    h.ledger⟩

/-- Twins with the same records in use and the same blueprints. -/
theorem Twin.rewrap (h : Twin Q r r') (wrappers : WrapperStore) (blueprints : Blueprints) :
    Twin Q { r with wrappers := wrappers, blueprints := blueprints }
      { r' with wrappers := wrappers, blueprints := blueprints } :=
  ⟨h.catalog, rfl, rfl, h.operations, h.ledger⟩

theorem Twin.gate (h : Twin Q r r') (destination : String) (unit : BundleRef) :
    r'.gate destination unit = r.gate destination unit := by
  unfold Registry.gate
  rw [h.catalog, h.blueprints]

section

variable {σ α β : Type} {alike : σ → σ → Prop} {s s' : σ}

/-- Two outcomes with the same result that leave twins on machines that are alike. -/
structure Matched (Q : Ledger → Ledger → Prop) (alike : σ → σ → Prop)
    (outcome outcome' : (α × Registry) × σ) : Prop where
  returned : outcome'.1.1 = outcome.1.1
  twin : Twin Q outcome.1.2 outcome'.1.2
  machine : alike outcome.2 outcome'.2

/-- What goes on alike from matched outcomes comes to matched outcomes. -/
theorem Matched.bind {x x' : StateM σ (α × Registry)} {f : α × Registry → StateM σ (β × Registry)}
    (hx : Matched Q alike (x.run s) (x'.run s'))
    (hf : ∀ (a : α) ⦃r r' : Registry⦄ ⦃t t' : σ⦄, Twin Q r r' → alike t t' →
      Matched Q alike ((f (a, r)).run t) ((f (a, r')).run t')) :
    Matched Q alike ((x >>= f).run s) ((x' >>= f).run s') := by
  rw [run_bind, run_bind]
  rcases hfirst : x.run s with ⟨⟨a, r⟩, t⟩
  rcases hsecond : x'.run s' with ⟨⟨a', r'⟩, t'⟩
  rw [hfirst, hsecond] at hx
  obtain rfl : a' = a := hx.returned
  exact hf a' hx.twin hx.machine

/-- A call is matched if the scripts of operations are. -/
theorem matched_invokeWith {run : Script → Registry → StateM σ (Option Ending × Registry)}
    (hrun : ∀ script ⦃r r' : Registry⦄ ⦃s s' : σ⦄, Twin Q r r' → alike s s' →
      Matched Q alike ((run script r).run s) ((run script r').run s'))
    (h : Twin Q r r') (hs : alike s s') (destination name : String) (receiver : Option Value)
    (arguments : List Value) :
    Matched Q alike ((invokeWith run destination name receiver arguments r).run s)
      ((invokeWith run destination name receiver arguments r').run s') := by
  have hfound := h.get? destination name
  unfold invokeWith
  cases hop : r.dispatch.get? destination name with
  | none =>
    rw [hop, Option.map_none, Option.map_eq_none_iff] at hfound
    rw [hfound]
    exact ⟨rfl, h, hs⟩
  | some op =>
    -- The twin of the operation has its handler, its type and its name.
    rw [hop, Option.map_some, Option.map_eq_some_iff] at hfound
    obtain ⟨op', hop', hsame⟩ := hfound
    obtain ⟨hdestination, hname, hhandler, -⟩ := Operation.mk.inj hsame
    rw [hop']
    dsimp only
    rw [hdestination, hname, hhandler]
    refine Matched.bind ?_ fun outcome r r' t t' h ht => ⟨rfl, h, ht⟩
    unfold attemptWith
    cases op.handler.signature.check arguments with
    | error fault => exact ⟨rfl, h, hs⟩
    | ok _ => exact Matched.bind (hrun _ h hs) fun ending r r' t t' h ht => ⟨rfl, h, ht⟩

variable [Host (StateM σ)]

/-! ## 5. Requests -/

/-- Apart from its change of the table and the ledger, an installation only logs. -/
theorem run_install (hquiet : Unlogged alike) {destination : String}
    (h : r.catalog.check destination = .ok ()) (handlers : List (String × Handler))
    (source : Provenance) (s : σ) :
    ∃ t, (r.install destination handlers source : StateM σ _).run s
      = (.ok (r.installed destination handlers source).2, t) ∧ alike s t := by
  have hlogged : Keeps alike (r.install destination handlers source : StateM σ _) := by
    unfold install
    rw [h]
    refine Keeps.bind hquiet.composable
      (Keeps.forM hquiet.composable (fun _ => hquiet.keeps_log _) _) fun _ => ?_
    exact Keeps.bind hquiet.composable (hquiet.keeps_log _) fun _ => Keeps.pure hquiet.composable _
  rcases hrun : (r.install destination handlers source : StateM σ _).run s with ⟨result, t⟩
  have ht := hlogged.of_run hrun
  rcases install_cases hrun with ⟨error, hclosed, -, -⟩ | ⟨-, rfl⟩
  · exact absurd (hclosed.symm.trans h) (by simp)
  · exact ⟨t, rfl, ht⟩

theorem run_registerOperation (hquiet : Unlogged alike) {destination : String}
    (h : r.catalog.check destination = .ok ()) (name : String) (handler : Handler) (s : σ) :
    ∃ t, (r.registerOperation destination name handler : StateM σ _).run s
      = ((.ok (), (r.installed destination [(name, handler)] .handler).2), t) ∧ alike s t := by
  obtain ⟨t, hinstall, ht⟩ := run_install hquiet h [(name, handler)] .handler s
  refine ⟨t, ?_, ht⟩
  unfold registerOperation
  rw [h]
  dsimp only
  rw [run_bind, hinstall]
  rfl

theorem matched_registerOperation (hquiet : Unlogged alike) (hQ : Ledger.Lasting Q)
    (h : Twin Q r r') (hs : alike s s') (destination name : String) (handler : Handler) :
    Matched Q alike ((r.registerOperation destination name handler : StateM σ _).run s)
      ((r'.registerOperation destination name handler : StateM σ _).run s') := by
  cases hcheck : r.catalog.check destination with
  | error error =>
    have hcheck' : r'.catalog.check destination = .error error := h.catalog ▸ hcheck
    unfold registerOperation
    rw [hcheck, hcheck']
    exact ⟨rfl, h, hs⟩
  | ok _ =>
    have hcheck' : r'.catalog.check destination = .ok () := h.catalog ▸ hcheck
    obtain ⟨t, hrun, ht⟩ := run_registerOperation hquiet hcheck name handler s
    obtain ⟨t', hrun', ht'⟩ := run_registerOperation hquiet hcheck' name handler s'
    rw [hrun, hrun']
    exact ⟨rfl, h.installed hQ _ _ _ _, hquiet.of_keeps hs ht ht'⟩

theorem matched_register (hquiet : Unlogged alike) (hQ : Ledger.Lasting Q) (h : Twin Q r r')
    (hs : alike s s') (destination : String) (unit : BundleRef) :
    Matched Q alike ((r.register destination unit : StateM σ _).run s)
      ((r'.register destination unit : StateM σ _).run s') := by
  unfold register
  rw [h.gate]
  cases hgate : r.gate destination unit with
  | error error => exact ⟨rfl, h, hs⟩
  | ok _ =>
    obtain ⟨hreturned, hleft⟩ := hquiet.interchangeable.blind_materialize r.wrappers r.blueprints unit hs
    rcases hmade : (r.wrappers.materialize r.blueprints unit : StateM σ _).run s
      with ⟨⟨made, wrappers, blueprints⟩, s₁⟩
    rcases hmade' : (r.wrappers.materialize r.blueprints unit : StateM σ _).run s'
      with ⟨made', s₁'⟩
    rw [hmade, hmade'] at hreturned hleft
    -- The same instance is made for both, or both fail to make one; the records in use are the same.
    obtain rfl := hreturned
    dsimp only
    rw [run_bind, run_bind, h.wrappers, h.blueprints, hmade, hmade']
    cases made with
    | error error => exact ⟨rfl, h.rewrap _ _, hleft⟩
    | ok i =>
      have hrewrapped := h.rewrap wrappers blueprints
      have hcheck : Catalog.check r.catalog destination = .ok () := check_of_gate hgate
      have hcheck' : Catalog.check r'.catalog destination = .ok () := h.catalog ▸ hcheck
      obtain ⟨t, hrun, ht⟩ := run_install hquiet
        (r := { r with wrappers := wrappers, blueprints := blueprints }) hcheck
        i.interface.entries (provenance unit i) s₁
      obtain ⟨t', hrun', ht'⟩ := run_install hquiet
        (r := { r' with wrappers := wrappers, blueprints := blueprints }) hcheck'
        i.interface.entries (provenance unit i) s₁'
      dsimp only
      rw [run_bind, run_bind, hrun, hrun']
      exact ⟨rfl, hrewrapped.installed hQ _ _ _ _, hquiet.of_keeps hleft ht ht'⟩

/-! ## 6. Runs -/

/-- The run lemma. The induction is on the number of steps, as every call inside of a run is a shorter
run. -/
theorem matched_run (hquiet : Unlogged alike) (hQ : Ledger.Lasting Q) (steps : Nat) (script : Script)
    ⦃r r' : Registry⦄ ⦃s s' : σ⦄ (h : Twin Q r r') (hs : alike s s') :
    Matched Q alike ((run steps script r : StateM σ _).run s)
      ((run steps script r' : StateM σ _).run s') := by
  induction steps generalizing script r r' s s' with
  | zero => exact ⟨rfl, h, hs⟩
  | succ steps ih =>
    cases script with
    | done outcome => exact ⟨rfl, h, hs⟩
    | panic payload => exact ⟨rfl, h, hs⟩
    | invoke destination name receiver arguments next =>
      refine Matched.bind (matched_invokeWith ih h hs destination name receiver arguments) ?_
      intro outcome r r' t t' h ht
      cases outcome with
      | none => exact ⟨rfl, h, ht⟩
      | some result => exact ih (next result) h ht
    | register destination unit next =>
      exact Matched.bind (matched_register hquiet hQ h hs destination unit)
        fun result _ _ _ _ h ht => ih (next result) h ht
    | registerOperation destination name handler next =>
      exact Matched.bind (matched_registerOperation hquiet hQ h hs destination name handler)
        fun result _ _ _ _ h ht => ih (next result) h ht
    | reset next => exact ih next (h.reset hQ) hs

theorem matched_invoke (hquiet : Unlogged alike) (hQ : Ledger.Lasting Q) (h : Twin Q r r')
    (hs : alike s s') (steps : Nat) (destination name : String) (receiver : Option Value)
    (arguments : List Value) :
    Matched Q alike ((r.invoke steps destination name receiver arguments : StateM σ _).run s)
      ((r'.invoke steps destination name receiver arguments : StateM σ _).run s') :=
  matched_invokeWith (matched_run hquiet hQ steps) h hs destination name receiver arguments

/-- **Twins answer alike and stay twins**, whatever they are asked. -/
theorem matched_serve (hquiet : Unlogged alike) (hQ : Ledger.Lasting Q) (h : Twin Q r r')
    (hs : alike s s') (steps : Nat) (use : Use) :
    Matched Q alike ((use.serve steps r : StateM σ _).run s)
      ((use.serve steps r' : StateM σ _).run s') := by
  cases use with
  | declare name extensible => exact ⟨rfl, h.declare name extensible, hs⟩
  | define name kind make => exact ⟨rfl, h.define name kind make, hs⟩
  | register destination unit =>
    exact Matched.bind (matched_register hquiet hQ h hs destination unit)
      fun _ _ _ _ _ h ht => ⟨rfl, h, ht⟩
  | registerOperation destination name handler =>
    exact Matched.bind (matched_registerOperation hquiet hQ h hs destination name handler)
      fun _ _ _ _ _ h ht => ⟨rfl, h, ht⟩
  | invoke destination name receiver arguments =>
    exact Matched.bind (matched_invoke hquiet hQ h hs steps destination name receiver arguments)
      fun _ _ _ _ _ h ht => ⟨rfl, h, ht⟩
  | flushWrappers =>
    obtain ⟨hreturned, hleft⟩ := hquiet.blind_flush r.wrappers hs
    rcases hflush : (r.wrappers.flush : StateM σ _).run s with ⟨⟨result, wrappers⟩, t⟩
    rcases hflush' : (r.wrappers.flush : StateM σ _).run s' with ⟨⟨result', wrappers'⟩, t'⟩
    rw [hflush, hflush'] at hreturned hleft
    obtain ⟨rfl, rfl⟩ := Prod.mk.inj hreturned
    simp only [Use.serve, flushWrappers, run_bind, run_pure, h.wrappers, hflush, hflush']
    exact ⟨rfl, ⟨h.catalog, h.blueprints, rfl, h.operations, h.ledger⟩, hleft⟩
  | reset => exact ⟨rfl, h.reset hQ, hs⟩

/-- What an application is told in a sequence of turns. -/
def replies : List (Turn σ) → Registry → σ → List Reply
  | [], _, _ => []
  | turn :: rest, r, s =>
    let outcome := (turn.use.serve turn.steps r : StateM σ _).run (turn.meanwhile s)
    outcome.1.1 :: replies rest outcome.1.2 outcome.2

/-- Twins tell an application the same for as long as it asks, if what others do to the machine
meanwhile does not depend on what was logged. -/
theorem replies_eq_of_twin (hquiet : Unlogged alike) (hQ : Ledger.Lasting Q) (h : Twin Q r r')
    (hs : alike s s') (turns : List (Turn σ))
    (hturns : ∀ turn ∈ turns, ∀ t t', alike t t' → alike (turn.meanwhile t) (turn.meanwhile t')) :
    replies turns r' s' = replies turns r s := by
  induction turns generalizing r r' s s' with
  | nil => rfl
  | cons turn rest ih =>
    obtain ⟨hturn, hrest⟩ := List.forall_mem_cons.mp hturns
    have hmatched := matched_serve hquiet hQ h (hturn s s' hs) turn.steps turn.use
    unfold replies
    dsimp only
    rw [hmatched.returned, ih hmatched.twin hmatched.machine hrest]

end

end Registry

end Graft
