/-
The dispatch table and the ledger tell the same story.

The table keeps the winner of every name and the ledger keeps everything, and neither is derived
from the other: a batch is written to both. What they have in common is the face of an entry, which
is all that a type checker may know about it: destination, name, signature and source. The invariant
is that for every destination the table and the map of latest registrations have the same faces, as
maps that remember the order of their keys. The order comes for free that way: on either side a new
name goes to the end and a known one stays where it is.

The main statement says that the names of a destination, their order, and the signature and the
source under every name agree, in every registry that ever comes about.
-/
import Graft.Proofs.LatestBindings
import Graft.Proofs.Reachable
import Graft.World

set_option autoImplicit false

namespace Graft

/-! ## 1. Faces -/

/-- What the table and the ledger both know of an entry. -/
structure Face where
  destination : String
  name : String
  signature : Signature
  source : Provenance
  deriving DecidableEq

/-- The face of an installed operation. -/
def Operation.face (op : Operation) : Face :=
  ⟨op.destination, op.name, op.handler.signature, op.source⟩

/-- The face of a registration; only its number is left out. -/
def Registration.face (r : Registration) : Face := ⟨r.destination, r.name, r.signature, r.source⟩

/-- The faces of the installed operations of a type. -/
def Dispatch.faces (dispatch : Dispatch) (destination : String) : OrderedMap String Face :=
  (dispatch.operationsOf destination).mapValues Operation.face

/-- The faces of the latest registrations for a type. -/
def Ledger.faces (ledger : Ledger) (destination : String) : OrderedMap String Face :=
  (ledger.latestMap destination).mapValues Registration.face

/-! ## 2. What a batch does to either side -/

theorem Dispatch.operationsOf_install (dispatch : Dispatch) (destination : String)
    (batch : List Operation) (other : String) :
    (dispatch.install destination batch).2.operationsOf other
      = if other = destination then
          batch.foldl (fun operations op => operations.insert op.name op)
            (dispatch.operationsOf destination)
        else dispatch.operationsOf other := by
  simp only [install, operationsOf, OrderedMap.get?_insert]
  split <;> rfl

/-- A batch overwrites the faces of its destination, one operation after the other. -/
theorem Dispatch.faces_install (dispatch : Dispatch) (destination : String)
    (batch : List Operation) (other : String) :
    (dispatch.install destination batch).2.faces other
      = if other = destination then
          batch.foldl (fun faces op => faces.insert op.name op.face) (dispatch.faces destination)
        else dispatch.faces other := by
  unfold faces
  rw [operationsOf_install]
  split
  · generalize dispatch.operationsOf destination = operations
    induction batch generalizing operations with
    | nil => rfl
    | cons op rest ih =>
      rw [List.foldl_cons, List.foldl_cons, ih, OrderedMap.mapValues_insert]
  · rfl

/-- A record overwrites one face, or adds it, and keeps the ledger enabled. -/
theorem Ledger.faces_record {ledger : Ledger} (h : ledger.mode = .enabled)
    (destination name : String) (signature : Signature) (source : Provenance) (other : String) :
    (ledger.record destination name signature source).2.faces other
      = if other = destination then
          (ledger.faces destination).insert name ⟨destination, name, signature, source⟩
        else ledger.faces other := by
  unfold faces
  rw [latestMap_record h]
  split
  · next hd =>
    subst hd
    rw [OrderedMap.mapValues_insert]
    rfl
  · rfl

/-- The records of a batch overwrite the faces of its destination, one handler after the other. -/
theorem Ledger.faces_foldl_record {ledger : Ledger} (h : ledger.mode = .enabled)
    (destination : String) (source : Provenance) (handlers : List (String × Handler))
    (other : String) :
    (handlers.foldl (Registry.recordOne destination source) ledger).mode = .enabled ∧
      (handlers.foldl (Registry.recordOne destination source) ledger).faces other
        = if other = destination then
            handlers.foldl (fun faces entry =>
              faces.insert entry.1 ⟨destination, entry.1, entry.2.signature, source⟩)
              (ledger.faces destination)
          else ledger.faces other := by
  -- The mode is part of the induction: a disabled ledger would not take the next record.
  induction handlers generalizing ledger with
  | nil =>
    refine ⟨h, ?_⟩
    split
    · next hd => rw [hd]; rfl
    · rfl
  | cons entry rest ih =>
    have hmode : (Registry.recordOne destination source ledger entry).mode = .enabled := by
      unfold Registry.recordOne
      rw [mode_record, h]
    obtain ⟨hmode', hfaces⟩ := ih hmode
    refine ⟨hmode', ?_⟩
    rw [List.foldl_cons, hfaces]
    unfold Registry.recordOne
    rw [faces_record h, faces_record h, if_pos rfl, List.foldl_cons]
    split <;> rfl

/-! ## 3. The invariant -/

/-- The ledger is enabled, and table and ledger show the same faces for every type. -/
structure Registry.Agrees (r : Registry) : Prop where
  enabled : r.ledger.mode = .enabled
  faces : ∀ destination, r.dispatch.faces destination = r.ledger.faces destination

/-- The step lemma: what the primitive changes do to the table they also do to the ledger. -/
theorem Registry.stable_agrees : Stable Agrees where
  declare _ _ h := ⟨h.enabled, h.faces⟩
  define _ _ _ h := ⟨h.enabled, h.faces⟩
  rewrap _ _ h := ⟨h.enabled, h.faces⟩
  install := by
    intro r destination handlers source h
    obtain ⟨hmode, hfaces⟩ : _ ∧ ∀ other, _ :=
      ⟨(Ledger.faces_foldl_record h.enabled destination source handlers destination).1,
        fun other => (Ledger.faces_foldl_record h.enabled destination source handlers other).2⟩
    refine ⟨hmode, fun other => ?_⟩
    show (r.dispatch.install destination _).2.faces other
      = (handlers.foldl (recordOne destination source) r.ledger).faces other
    -- Both sides are now one fold of overwritten faces over the same batch.
    rw [hfaces, Dispatch.faces_install, List.foldl_map, h.faces, h.faces]
    rfl
  reset h := ⟨h.enabled, fun _ => rfl⟩

/-- An entry that the two sides agree on is found by a look-up on either side. -/
theorem Registry.Agrees.lookup {r : Registry} (h : r.Agrees) {destination name : String}
    (hname : name ∈ r.dispatch.names destination) :
    ∃ op b, r.dispatch.get? destination name = some op ∧
      r.ledger.latest? destination name = some b ∧ op.face = b.face := by
  have hsome := (OrderedMap.contains_iff_mem_keys _ _).mpr hname
  obtain ⟨op, hop⟩ := Option.isSome_iff_exists.mp hsome
  have hface : (r.ledger.faces destination).get? name = some op.face := by
    rw [← h.faces, Dispatch.faces, OrderedMap.get?_mapValues, hop, Option.map_some]
  rw [Ledger.faces, OrderedMap.get?_mapValues, Option.map_eq_some_iff] at hface
  obtain ⟨b, hb, hbface⟩ := hface
  exact ⟨op, b, hop, by rw [Ledger.latest?_eq_get?, hb], hbface.symm⟩

/-! ## 4. Every registry -/

/-- **The table and the ledger agree.** In every registry with an enabled ledger that ever comes
about, in the middle of a call or between two, the operations of a type are the names of its latest
registrations, in the same order and without repetition; and under every name stands an operation
of that type and that name with the signature and the source of the latest registration. -/
theorem Registry.operations_eq_latestBindings {σ : Type} [Host (StateM σ)] {r : Registry}
    (h : Reached σ .enabled r) (destination : String) :
    r.dispatch.names destination
        = (r.ledger.latestBindings destination).map Registration.name ∧
      (r.dispatch.names destination).Nodup ∧
      ∀ name ∈ r.dispatch.names destination, ∃ op b,
        r.dispatch.get? destination name = some op ∧
        r.ledger.latest? destination name = some b ∧
        op.destination = destination ∧ op.name = name ∧
        op.handler.signature = b.signature ∧ op.source = b.source := by
  have hagrees : r.Agrees :=
    stable_agrees.of_reached (fun _ _ => ⟨rfl, fun _ => rfl⟩) h
  refine ⟨?_, (r.dispatch.operationsOf destination).keys_nodup, ?_⟩
  · rw [Ledger.map_name_latestBindings]
    have hkeys := congrArg OrderedMap.keys (hagrees.faces destination)
    rwa [Dispatch.faces, Ledger.faces, OrderedMap.keys_mapValues, OrderedMap.keys_mapValues]
      at hkeys
  · intro name hname
    obtain ⟨op, b, hop, hb, hface⟩ := hagrees.lookup hname
    obtain ⟨-, hdest, hbname⟩ := Ledger.mem_bindings_of_latest? hb
    obtain ⟨h₁, h₂, h₃, h₄⟩ := Face.mk.inj hface
    exact ⟨op, b, hop, hb, h₁.trans hdest, h₂.trans hbname, h₃, h₄⟩

/-- A handler that does nothing. -/
def Handler.idle : Handler := ⟨{}, none, fun _ _ => .done (.ok .null)⟩

/-- A handler that installs another one on a type and then resets the registry. -/
def Handler.growing (destination name : String) : Handler :=
  ⟨{}, none, fun _ _ =>
    .registerOperation destination name .idle (fun _ => .reset (.done (.ok .null)))⟩

/-- A registry with one type and a growing operation on it. -/
def Registry.sprout : Registry :=
  (((ofManifest .empty ⟨none, .enabled⟩).declare "T" true).installed "T"
    [("grow", .growing "T" "leaf")] .handler).2

/-- In the middle of a call that registers and is about to reset, both sides already show what was
registered. -/
theorem Registry.operations_eq_latestBindings_sprout :
    Reached World .enabled (sprout.installed "T" [("leaf", .idle)] .handler).2 ∧
      (sprout.installed "T" [("leaf", .idle)] .handler).2.dispatch.names "T" = ["grow", "leaf"] ∧
      ((sprout.installed "T" [("leaf", .idle)] .handler).2.ledger.latestBindings "T").map
        Registration.name = ["grow", "leaf"] := by
  have hnew : Between World .enabled (ofManifest .empty ⟨none, .enabled⟩) := .new _ _
  have hdeclared : Between World .enabled _ :=
    Between.used (.declare "T" true) 0 (World.fresh [] ⟨"tmp"⟩) hnew rfl
  have hsprout : Between World .enabled sprout :=
    Between.used (.registerOperation "T" "grow" (.growing "T" "leaf")) 0
      (World.fresh [] ⟨"tmp"⟩) hdeclared rfl
  have hreached : Reached World .enabled (sprout.installed "T" [("leaf", .idle)] .handler).2 :=
    .during (.invoke "T" "grow" none []) (World.fresh [] ⟨"tmp"⟩) hsprout
      (.within rfl rfl (.registeredOperation rfl (.here _ _ _)))
  have hnames : (sprout.installed "T" [("leaf", .idle)] .handler).2.dispatch.names "T"
      = ["grow", "leaf"] := by decide
  refine ⟨hreached, hnames, ?_⟩
  rw [← (operations_eq_latestBindings hreached "T").1, hnames]

end Graft
