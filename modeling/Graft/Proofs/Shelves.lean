/-
A ledger on shelves: the registrations of every destination apart, and one count over all of them.

`Ledger` keeps one log and picks the registrations of a destination out of it. A ledger may as well be
kept split up: a map from destinations to their own registrations, in the order in which the
destinations first came, together with the next number, which is taken from the same count whatever the
destination. `Shelves` is such a ledger, with every question answered from the map.

`Ledger.shelved` puts a log on shelves. It makes no difference whether a request is made before or after
that (`shelved_record`, `shelved_reset`), and whatever a ledger shows, its shelves show as well
(`shown_shelved`). So what is proved of the log holds of the shelves, and the order of all registrations
is not lost when they are split up.
-/
import Graft.Proofs.FingerprintText
import Graft.Proofs.Overwriting

set_option autoImplicit false

namespace Graft

/-! ## 1. Shelves -/

/-- A ledger that is kept split up by destination. -/
structure Shelves where
  mode : Ledger.Mode
  /-- The registrations of every destination, oldest first. -/
  byDestination : OrderedMap String (List Registration)
  /-- The number of the next registration, on whatever shelf. -/
  next : Nat

namespace Shelves

/-- Shelves without registrations. -/
def new (mode : Ledger.Mode) : Shelves := ⟨mode, .empty, 0⟩

/-- The registrations for a destination, oldest first. -/
def bindings (shelves : Shelves) (destination : String) : List Registration :=
  (shelves.byDestination.get? destination).getD []

/-- Records a registration at the end of the shelf of its destination. -/
def record (shelves : Shelves) (destination name : String) (signature : Signature)
    (source : Provenance) : Option Nat × Shelves :=
  match shelves.mode with
  | .disabled => (none, shelves)
  | .enabled =>
    let r : Registration := ⟨destination, name, signature, source, shelves.next⟩
    (some shelves.next, { shelves with
      byDestination :=
        shelves.byDestination.insert destination (shelves.bindings destination ++ [r])
      next := shelves.next + 1 })

/-- Empties all shelves and numbers from zero again. -/
def reset (shelves : Shelves) : Shelves := new shelves.mode

/-- The most recent registration of a name, from the end of a shelf. -/
def latest? (shelves : Shelves) (destination name : String) : Option Registration :=
  (shelves.byDestination.get? destination).bind fun shelf =>
    shelf.reverse.find? (fun r => r.name = name)

/-- The most recent registration of every name, from the beginning of a shelf. -/
def latestBindings (shelves : Shelves) (destination : String) : List Registration :=
  match shelves.byDestination.get? destination with
  | none => []
  | some shelf => (OrderedMap.ofList (shelf.map fun r => (r.name, r))).values

/-- The destinations with a shelf. -/
def destinations (shelves : Shelves) : List String := shelves.byDestination.keys

/-- The number of registrations on all shelves. -/
def size (shelves : Shelves) : Nat :=
  shelves.byDestination.values.foldr (fun shelf count => shelf.length + count) 0

/-- The lines of all registrations, shelf after shelf. -/
def fingerprintText (shelves : Shelves) : String :=
  String.join (shelves.byDestination.entries.flatMap fun entry =>
    entry.2.map fun r => Ledger.line { r with destination := entry.1 })

end Shelves

/-! ## 2. What is shown -/

namespace Ledger

/-- What can be asked of a ledger. -/
structure Shown where
  bindings : String → List Registration
  latest? : String → String → Option Registration
  latestBindings : String → List Registration
  destinations : List String
  size : Nat
  fingerprintText : String

/-- What a ledger shows. -/
def shown (ledger : Ledger) : Shown where
  bindings := ledger.bindings
  latest? := ledger.latest?
  latestBindings := ledger.latestBindings
  destinations := ledger.destinations
  size := ledger.size
  fingerprintText := ledger.fingerprintText

end Ledger

/-- What shelves show. -/
def Shelves.shown (shelves : Shelves) : Ledger.Shown where
  bindings := shelves.bindings
  latest? := shelves.latest?
  latestBindings := shelves.latestBindings
  destinations := shelves.destinations
  size := shelves.size
  fingerprintText := shelves.fingerprintText

/-! ## 3. A log on shelves -/

namespace Ledger

/-- The registrations of a log for a destination. -/
def sent (log : List Registration) (destination : String) : List Registration :=
  log.filter (fun r => r.destination = destination)

/-- Puts a registration at the end of its shelf. -/
def shelve (shelves : OrderedMap String (List Registration)) (r : Registration) :
    OrderedMap String (List Registration) :=
  shelves.insert r.destination ((shelves.get? r.destination).getD [] ++ [r])

/-- Puts a log on shelves. -/
def shelfMap (log : List Registration) : OrderedMap String (List Registration) :=
  log.foldl shelve .empty

/-- A ledger on shelves. -/
def shelved (ledger : Ledger) : Shelves :=
  ⟨ledger.mode, shelfMap ledger.log, ledger.log.length⟩

theorem sent_concat (log : List Registration) (r : Registration) (destination : String) :
    sent (log ++ [r]) destination
      = if r.destination = destination then sent log destination ++ [r] else sent log destination := by
  rw [sent, filter_concat, ← sent]
  simp only [decide_eq_true_iff]

theorem shelfMap_concat (log : List Registration) (r : Registration) :
    shelfMap (log ++ [r]) = shelve (shelfMap log) r := by
  rw [shelfMap, List.foldl_append]
  rfl

/-- The shelves stand in the order in which the destinations first came. -/
theorem keys_shelfMap (log : List Registration) :
    (shelfMap log).keys = (log.map Registration.destination).eraseDups := by
  induction log using List.reverseRecOn with
  | nil => rfl
  | append_singleton before r ih =>
    have hmem : r.destination ∈ (before.map Registration.destination).eraseDups
        ↔ r.destination ∈ before.map Registration.destination := List.mem_eraseDups
    rw [shelfMap_concat, shelve, OrderedMap.keys_insert, ih, List.map_append, List.map_singleton,
      eraseDups_concat]
    simp only [hmem]

/-- An empty list may be left out of a map that takes what is missing for it. -/
theorem getD_ite_eq_nil {α : Type} (xs : List α) [Decidable (xs = [])] :
    (if xs = [] then none else some xs).getD [] = xs := by
  by_cases h : xs = []
  · rw [if_pos h, Option.getD_none, h]
  · rw [if_neg h, Option.getD_some]

/-- On a shelf stands what was recorded for its destination. A destination without a registration has no
shelf, so the look-up is told by what it gives for an empty one. -/
theorem get?_shelfMap (log : List Registration) (destination : String) :
    (shelfMap log).get? destination
      = if sent log destination = [] then none else some (sent log destination) := by
  induction log using List.reverseRecOn with
  | nil => rfl
  | append_singleton before r ih =>
    have hshelf : ((shelfMap before).get? destination).getD [] = sent before destination := by
      rw [ih, getD_ite_eq_nil]
    rw [shelfMap_concat, shelve, OrderedMap.get?_insert, sent_concat]
    by_cases h : destination = r.destination
    · subst h
      have hne : sent before r.destination ++ [r] ≠ [] :=
        List.append_ne_nil_of_right_ne_nil _ (List.cons_ne_nil _ _)
      simp only [if_true, hshelf, if_neg hne]
    · simp only [if_neg h, if_neg (Ne.symm h), ih]

theorem getD_shelfMap (log : List Registration) (destination : String) :
    ((shelfMap log).get? destination).getD [] = sent log destination := by
  rw [get?_shelfMap, getD_ite_eq_nil]

/-- The map of shelves, written out. -/
theorem entries_shelfMap (log : List Registration) :
    (shelfMap log).entries
      = (log.map Registration.destination).eraseDups.map (fun d => (d, sent log d)) := by
  have hentry : ∀ entry ∈ (shelfMap log).entries, (entry.1, sent log entry.1) = entry := by
    intro entry hin
    rw [← getD_shelfMap, OrderedMap.get?_of_mem_entries hin, Option.getD_some]
  rw [← keys_shelfMap, OrderedMap.keys, List.map_map]
  calc (shelfMap log).entries
      = (shelfMap log).entries.map id := (List.map_id _).symm
    _ = (shelfMap log).entries.map (fun entry => (entry.1, sent log entry.1)) :=
        List.map_congr_left fun entry hin => (hentry entry hin).symm

/-! ## 4. Requests before and after -/

theorem shelved_new (mode : Mode) : (new mode).shelved = .new mode := rfl

/-- A record gives the same number and leads to the same shelves. -/
theorem shelved_record (ledger : Ledger) (destination name : String) (signature : Signature)
    (source : Provenance) :
    ledger.shelved.record destination name signature source
      = ((ledger.record destination name signature source).1,
          (ledger.record destination name signature source).2.shelved) := by
  cases hmode : ledger.mode with
  | disabled =>
    have hshelves : ledger.shelved.mode = .disabled := hmode
    rw [Shelves.record, record, hmode, hshelves]
  | enabled =>
    have hshelves : ledger.shelved.mode = .enabled := hmode
    have hnext : (ledger.record destination name signature source).2.shelved
        = ⟨.enabled, shelve ledger.shelved.byDestination
            (ledger.nextRegistration destination name signature source), ledger.log.length + 1⟩ := by
      rw [shelved, mode_record, hmode, log_record hmode, shelfMap_concat, List.length_append,
        List.length_singleton]
      rfl
    rw [Shelves.record, hshelves, hnext, record, hmode]
    rfl

theorem shelved_reset (ledger : Ledger) : ledger.reset.shelved = ledger.shelved.reset := rfl

/-! ## 5. Shelves show what their ledger shows -/

theorem destinations_shelved (ledger : Ledger) :
    ledger.shelved.destinations = ledger.destinations := by
  rw [Shelves.destinations, shelved, keys_shelfMap, destinations, OrderedSet.toList_ofList]

theorem entries_shelved (ledger : Ledger) :
    ledger.shelved.byDestination.entries
      = ledger.destinations.map (fun d => (d, ledger.bindings d)) := by
  rw [← destinations_shelved, Shelves.destinations, shelved, keys_shelfMap, entries_shelfMap]
  rfl

theorem bindings_shelved (ledger : Ledger) (destination : String) :
    ledger.shelved.bindings destination = ledger.bindings destination :=
  getD_shelfMap ledger.log destination

theorem latest?_shelved (ledger : Ledger) (destination name : String) :
    ledger.shelved.latest? destination name = ledger.latest? destination name := by
  rw [Shelves.latest?, shelved, get?_shelfMap, latest?]
  split
  · next hempty =>
    have hnone : ledger.bindings destination = [] := hempty
    rw [hnone]
    rfl
  · rfl

theorem latestBindings_shelved (ledger : Ledger) (destination : String) :
    ledger.shelved.latestBindings destination = ledger.latestBindings destination := by
  rw [Shelves.latestBindings, shelved, get?_shelfMap, latestBindings]
  by_cases hempty : sent ledger.log destination = []
  · have hnone : ledger.bindings destination = [] := hempty
    rw [if_pos hempty, hnone]
    rfl
  · rw [if_neg hempty]
    rfl

/-- Every registration stands on one shelf. -/
theorem size_shelved (ledger : Ledger) : ledger.shelved.size = ledger.size := by
  have hsum : ∀ destinations : List String,
      (destinations.map ledger.bindings).foldr (fun shelf count => shelf.length + count) 0
        = (destinations.flatMap ledger.bindings).length := by
    intro destinations
    induction destinations with
    | nil => rfl
    | cons destination rest ih =>
      rw [List.map_cons, List.foldr_cons, ih, List.flatMap_cons, List.length_append]
  have hvalues : ledger.shelved.byDestination.values = ledger.destinations.map ledger.bindings := by
    rw [OrderedMap.values, entries_shelved, List.map_map]
    rfl
  rw [Shelves.size, hvalues, hsum]
  exact ledger.grouped_perm.length_eq

theorem fingerprintText_shelved (ledger : Ledger) :
    ledger.shelved.fingerprintText = ledger.fingerprintText := by
  have hlines : ∀ destination, (ledger.bindings destination).map
        (fun r => line { r with destination := destination })
      = (ledger.bindings destination).map line := by
    intro destination
    refine List.map_congr_left fun r hr => ?_
    obtain ⟨-, rfl⟩ := mem_bindings.mp hr
    rfl
  rw [Shelves.fingerprintText, entries_shelved, List.flatMap_map, fingerprintText]
  simp only [hlines]

/-- **Shelves show what their ledger shows.** -/
theorem shown_shelved (ledger : Ledger) : ledger.shelved.shown = ledger.shown := by
  have hbindings := funext (bindings_shelved ledger)
  have hlatest : ledger.shelved.latest? = ledger.latest? := by
    funext destination name
    exact latest?_shelved ledger destination name
  have hlatestBindings := funext (latestBindings_shelved ledger)
  rw [Shelves.shown, shown, hbindings, hlatest, hlatestBindings, destinations_shelved, size_shelved,
    fingerprintText_shelved]

end Ledger

end Graft
