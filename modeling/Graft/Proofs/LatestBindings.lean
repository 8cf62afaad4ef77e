/-
The latest registration of every name of a destination, as a map.

The ledger answers the question twice: `latestBindings` overwrites from the oldest to the newest and
lists what is left, `latest?` walks back from the newest and takes the first that fits. Both are
views of one map from names to registrations, and a record is one write to that map. Everything that
is said about the two elsewhere goes through these equations.
-/
import Graft.Ledger
import Graft.Proofs.Overwriting

set_option autoImplicit false

namespace Graft.Ledger

/-! ## 1. The map of latest registrations -/

/-- The latest of a list of registrations for every name, the oldest name first. -/
def latestOf (registrations : List Registration) : OrderedMap String Registration :=
  OrderedMap.ofList (registrations.map (fun r => (r.name, r)))

/-- The latest registration of every name of a destination. -/
def latestMap (ledger : Ledger) (destination : String) : OrderedMap String Registration :=
  latestOf (ledger.bindings destination)

/-- One more registration is one more write. This is the induction step of every fact about
`latestOf`, which is why those go by induction from the right. -/
theorem latestOf_concat (registrations : List Registration) (r : Registration) :
    latestOf (registrations ++ [r]) = (latestOf registrations).insert r.name r := by
  unfold latestOf
  rw [List.map_append, List.map_cons, List.map_nil, OrderedMap.ofList_concat]

/-- An entry stands under its own name and is one of the registrations. -/
theorem name_eq_of_mem_latestOf {registrations : List Registration} {name : String}
    {r : Registration} (h : (name, r) ∈ (latestOf registrations).entries) :
    r.name = name ∧ r ∈ registrations := by
  induction registrations using List.reverseRecOn with
  | nil => exact absurd h List.not_mem_nil
  | append_singleton before last ih =>
    rw [latestOf_concat] at h
    rcases OrderedMap.eq_or_mem_of_mem_insert h with heq | hmem
    · obtain ⟨rfl, rfl⟩ := Prod.mk.inj heq
      exact ⟨rfl, List.mem_append_right _ (List.mem_singleton.mpr rfl)⟩
    · obtain ⟨hname, hin⟩ := ih hmem
      exact ⟨hname, List.mem_append_left _ hin⟩

/-- Walking back from the newest registration finds what the map holds. -/
theorem get?_latestOf (registrations : List Registration) (name : String) :
    (latestOf registrations).get? name
      = registrations.reverse.find? (fun r => r.name = name) := by
  rw [latestOf, OrderedMap.get?_ofList_map, List.getLast?_filter]

/-! ## 2. The two answers of the ledger -/

theorem latestBindings_eq_values (ledger : Ledger) (destination : String) :
    ledger.latestBindings destination = (ledger.latestMap destination).values := rfl

/-- The listing names every name once, in the order in which the names first came. -/
theorem map_name_latestBindings (ledger : Ledger) (destination : String) :
    (ledger.latestBindings destination).map Registration.name
      = (ledger.latestMap destination).keys := by
  rw [latestBindings_eq_values, OrderedMap.values, OrderedMap.keys, List.map_map]
  refine List.map_congr_left fun entry h => ?_
  exact (name_eq_of_mem_latestOf h).1

theorem latest?_eq_get? (ledger : Ledger) (destination name : String) :
    ledger.latest? destination name = (ledger.latestMap destination).get? name :=
  (get?_latestOf (ledger.bindings destination) name).symm

/-- The latest registrations, each seen through a function, depend only on what the function shows
of all registrations. -/
theorem mapValues_latestOf {α : Type} (f : Registration → α) (registrations : List Registration) :
    (latestOf registrations).mapValues f
      = OrderedMap.ofList (registrations.map (fun r => (r.name, f r))) := by
  induction registrations using List.reverseRecOn with
  | nil => rfl
  | append_singleton before last ih =>
    rw [latestOf_concat, OrderedMap.mapValues_insert, ih, List.map_append, List.map_singleton,
      OrderedMap.ofList_concat]

theorem map_latestBindings {α : Type} (f : Registration → α) (ledger : Ledger) (d : String) :
    (ledger.latestBindings d).map f
      = (OrderedMap.ofList ((ledger.bindings d).map (fun r => (r.name, f r)))).values := by
  rw [← mapValues_latestOf, latestBindings_eq_values, latestMap]
  simp only [OrderedMap.values, OrderedMap.mapValues, List.map_map]
  rfl

/-- What is found for a destination and a name was recorded for them. -/
theorem mem_bindings_of_latest? {ledger : Ledger} {destination name : String} {r : Registration}
    (h : ledger.latest? destination name = some r) :
    r ∈ ledger.log ∧ r.destination = destination ∧ r.name = name := by
  rw [latest?_eq_get?] at h
  obtain ⟨hname, hin⟩ := name_eq_of_mem_latestOf (OrderedMap.mem_entries_of_get? h)
  obtain ⟨hlog, hdest⟩ := List.mem_filter.mp hin
  exact ⟨hlog, by simpa using hdest, hname⟩

theorem mem_log_of_mem_latestBindings {ledger : Ledger} {destination : String} {r : Registration}
    (h : r ∈ ledger.latestBindings destination) : r ∈ ledger.log := by
  obtain ⟨⟨name, q⟩, hentry, rfl⟩ := List.mem_map.mp h
  exact (List.mem_filter.mp (name_eq_of_mem_latestOf hentry).2).1

/-! ## 3. What a record and a reset do -/

theorem mode_record (ledger : Ledger) (destination name : String) (signature : Signature)
    (source : Provenance) :
    (ledger.record destination name signature source).2.mode = ledger.mode := by
  unfold record
  split <;> rfl

/-- What an enabled ledger adds to its log. -/
def nextRegistration (ledger : Ledger) (destination name : String) (signature : Signature)
    (source : Provenance) : Registration :=
  ⟨destination, name, signature, source, ledger.log.length⟩

theorem log_record {ledger : Ledger} (h : ledger.mode = .enabled) (destination name : String)
    (signature : Signature) (source : Provenance) :
    (ledger.record destination name signature source).2.log
      = ledger.log ++ [ledger.nextRegistration destination name signature source] := by
  unfold record
  rw [h]
  rfl

/-- A record only adds to the log. -/
theorem log_record_grows (ledger : Ledger) (destination name : String) (signature : Signature)
    (source : Provenance) :
    ledger.log <+: (ledger.record destination name signature source).2.log := by
  unfold record
  split
  · exact List.prefix_refl _
  · exact List.prefix_append _ _

/-- A record is a write at the name in the map of its destination, and leaves the others alone. -/
theorem latestMap_record {ledger : Ledger} (h : ledger.mode = .enabled)
    (destination name : String) (signature : Signature) (source : Provenance) (other : String) :
    (ledger.record destination name signature source).2.latestMap other
      = if other = destination then
          (ledger.latestMap other).insert name
            (ledger.nextRegistration destination name signature source)
        else ledger.latestMap other := by
  simp only [latestMap, bindings, log_record h, List.filter_append]
  by_cases hd : other = destination
  · subst hd
    have hkept : [ledger.nextRegistration other name signature source].filter
        (fun r => r.destination = other)
          = [ledger.nextRegistration other name signature source] := by simp [nextRegistration]
    rw [if_pos rfl, hkept]
    exact latestOf_concat _ _
  · have hdropped : [ledger.nextRegistration destination name signature source].filter
        (fun r => r.destination = other) = [] := by simp [nextRegistration, Ne.symm hd]
    rw [if_neg hd, hdropped, List.append_nil]

end Graft.Ledger
