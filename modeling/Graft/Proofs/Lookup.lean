/-
One name looked up and all names listed.

A ledger is asked for the latest registration of a name in two ways. A look-up walks back from the newest
registration and takes the first of that name; the listing goes forward and overwrites, so that a name
keeps the place where it first came and takes the registration that came last. Both read the same map, in
which a name stands once, so what is looked up is the one entry of the listing that has the name. Since
numbers rise along the log, it is also the registration with the greatest number.

Methods are made of registrations one by one, so what holds of the two ways to ask for a registration
holds of the two ways to ask for a method.

The main statement is `Ledger.lookup_agrees`.
-/
import Graft.Method
import Graft.Proofs.LedgerHistory

set_option autoImplicit false

namespace Graft

/-! ## 1. One entry of a map -/

/-- Where keys are distinct, a key picks the entry that is found at it. -/
theorem OrderedMap.filter_eq_of_find {κ ν : Type} [DecidableEq κ] {entries : List (κ × ν)}
    (h : (entries.map Prod.fst).Nodup) (key : κ) :
    entries.filter (fun entry => entry.1 = key) = ((find key entries).map (key, ·)).toList := by
  induction entries with
  | nil => rfl
  | cons entry rest ih =>
    obtain ⟨hnew, hrest⟩ := List.nodup_cons.mp h
    by_cases hkey : entry.1 = key
    · have hnone : rest.filter (fun entry => entry.1 = key) = [] := by
        rw [List.filter_eq_nil_iff]
        intro other hother hsame
        have heq : other.1 = entry.1 := (of_decide_eq_true hsame).trans hkey.symm
        exact hnew (heq ▸ List.mem_map_of_mem hother)
      rw [List.filter_cons_of_pos (by simpa using hkey), hnone, find, if_pos hkey, ← hkey]
      rfl
    · rw [List.filter_cons_of_neg (by simpa using hkey), find, if_neg hkey, ih hrest]

namespace Ledger

variable {ledger : Ledger} {destination name : String}

/-- The listing holds what is looked up as its one registration of the name. -/
theorem filter_latestBindings (ledger : Ledger) (destination name : String) :
    (ledger.latestBindings destination).filter (fun r => r.name = name)
      = (ledger.latest? destination name).toList := by
  have hnames : ∀ entry ∈ (ledger.latestMap destination).entries,
      decide (entry.2.name = name) = decide (entry.1 = name) := by
    intro entry hentry
    have hname : entry.2.name = entry.1 := (name_eq_of_mem_latestOf hentry).1
    rw [hname]
  have hentries : (ledger.latestMap destination).entries.filter (fun entry => entry.2.name = name)
      = (((ledger.latestMap destination).get? name).map (name, ·)).toList := by
    rw [List.filter_congr hnames]
    exact OrderedMap.filter_eq_of_find (ledger.latestMap destination).keys_nodup name
  rw [latestBindings_eq_values, OrderedMap.values, List.filter_map, latest?_eq_get?]
  show ((ledger.latestMap destination).entries.filter (fun entry => entry.2.name = name)).map Prod.snd
    = ((ledger.latestMap destination).get? name).toList
  rw [hentries]
  cases (ledger.latestMap destination).get? name <;> rfl

/-- The listing has the names where they first came. -/
theorem names_latestBindings (ledger : Ledger) (destination : String) :
    (ledger.latestBindings destination).map Registration.name
      = ((ledger.bindings destination).map Registration.name).eraseDups := by
  rw [map_name_latestBindings, latestMap, latestOf, OrderedMap.keys_ofList, List.map_map]
  rfl

/-! ## 2. The greatest number -/

/-- Where numbers rise, the last registration is the one with the greatest number. -/
theorem getLast?_eq_some_iff_greatest {registrations : List Registration} {r : Registration}
    (h : registrations.Pairwise (fun r q => r.sequence < q.sequence)) :
    registrations.getLast? = some r ↔
      r ∈ registrations ∧ ∀ q ∈ registrations, q.sequence ≤ r.sequence := by
  rcases List.eq_nil_or_concat registrations with rfl | ⟨before, last, rfl⟩
  · constructor
    · intro hlast
      cases hlast
    · rintro ⟨hin, -⟩
      exact absurd hin List.not_mem_nil
  · rw [List.concat_eq_append] at h ⊢
    have hbefore : ∀ q ∈ before, q.sequence < last.sequence := by
      intro q hq
      exact (List.pairwise_append.mp h).2.2 q hq last (List.mem_singleton.mpr rfl)
    have hlastIn : last ∈ before ++ [last] := List.mem_append_right _ (List.mem_singleton.mpr rfl)
    rw [List.getLast?_concat, Option.some_inj]
    constructor
    · rintro rfl
      refine ⟨hlastIn, ?_⟩
      intro q hq
      rcases List.mem_append.mp hq with hq | hq
      · exact Nat.le_of_lt (hbefore q hq)
      · rw [List.mem_singleton.mp hq]
    · rintro ⟨hin, hgreatest⟩
      rcases List.mem_append.mp hin with hin | hin
      · -- The last one would have a greater number.
        have hlt := hbefore r hin
        have hle := hgreatest last hlastIn
        omega
      · exact (List.mem_singleton.mp hin).symm

theorem Counted.latest?_eq_some_iff (h : ledger.Counted) {r : Registration} :
    ledger.latest? destination name = some r ↔
      r ∈ ledger.bindings destination ∧ r.name = name ∧
        ∀ q ∈ ledger.bindings destination, q.name = name → q.sequence ≤ r.sequence := by
  rw [latest?, ← List.getLast?_filter,
    getLast?_eq_some_iff_greatest ((h.increasing_bindings destination).filter _)]
  simp only [List.mem_filter, decide_eq_true_iff, and_imp, and_assoc]

theorem latest?_eq_none_iff : ledger.latest? destination name = none ↔
    ∀ r ∈ ledger.log, ¬ (r.destination = destination ∧ r.name = name) := by
  rw [latest?, List.find?_eq_none]
  constructor
  · rintro h r hr ⟨hdestination, hname⟩
    exact h r (List.mem_reverse.mpr (mem_bindings.mpr ⟨hr, hdestination⟩)) (decide_eq_true hname)
  · intro h r hr hname
    obtain ⟨hlog, hdestination⟩ := mem_bindings.mp (List.mem_reverse.mp hr)
    exact h r hlog ⟨hdestination, of_decide_eq_true hname⟩

/-! ## 3. Methods -/

/-- The methods hold what is looked up as the one method of the name. -/
theorem filter_methods (ledger : Ledger) (destination name : String) :
    (ledger.methods destination).filter (fun method => method.name = name)
      = (ledger.method? destination name).toList := by
  rw [methods, List.filter_map]
  show ((ledger.latestBindings destination).filter (fun r => r.name = name)).map Method.ofRegistration
    = (ledger.method? destination name).toList
  rw [filter_latestBindings, method?]
  cases ledger.latest? destination name <;> rfl

theorem names_methods (ledger : Ledger) (destination : String) :
    (ledger.methods destination).map Method.name
      = ((ledger.bindings destination).map Registration.name).eraseDups := by
  rw [← names_latestBindings, methods, List.map_map]
  rfl

/-- A type has the methods that are listed. -/
theorem hasMethod_iff : ledger.hasMethod destination name = true ↔
    name ∈ (ledger.methods destination).map Method.name := by
  have hone := filter_methods ledger destination name
  rw [hasMethod, List.mem_map]
  constructor
  · intro h
    obtain ⟨r, hr⟩ := Option.isSome_iff_exists.mp h
    rw [method?, hr, Option.map_some] at hone
    have hin : Method.ofRegistration r
        ∈ (ledger.methods destination).filter (fun method => method.name = name) := by
      rw [hone]
      exact List.mem_singleton.mpr rfl
    obtain ⟨hin, hname⟩ := List.mem_filter.mp hin
    exact ⟨_, hin, of_decide_eq_true hname⟩
  · rintro ⟨method, hin, hname⟩
    have hkept : method ∈ (ledger.methods destination).filter (fun method => method.name = name) :=
      List.mem_filter.mpr ⟨hin, decide_eq_true hname⟩
    rw [hone, Option.mem_toList, method?] at hkept
    obtain ⟨r, hr, -⟩ := Option.map_eq_some_iff.mp hkept
    rw [hr]
    rfl

/-! ## 4. Look-ups and listings -/

/-- What a ledger with given records answers about a name of a destination. -/
structure Answers (records : List Registration) (ledger : Ledger) (destination name : String) : Prop
    where
  /-- What is looked up is the one registration of the name that is listed. -/
  listed : (ledger.latestBindings destination).filter (fun r => r.name = name)
    = (ledger.latest? destination name).toList
  /-- Nothing is found for what was never recorded. -/
  absent : ledger.latest? destination name = none ↔
    ∀ r ∈ records, ¬ (r.destination = destination ∧ r.name = name)
  /-- What is found has the greatest number of all registrations of the name. -/
  greatest : ∀ r, ledger.latest? destination name = some r ↔
    r ∈ ledger.bindings destination ∧ r.name = name ∧
      ∀ q ∈ ledger.bindings destination, q.name = name → q.sequence ≤ r.sequence
  /-- The names are listed once, where they were first recorded. -/
  names : (ledger.latestBindings destination).map Registration.name
    = ((records.filter (fun r => r.destination = destination)).map Registration.name).eraseDups
  distinct : ((ledger.latestBindings destination).map Registration.name).Nodup
  /-- The method that is looked up is the one method of the name that is listed. -/
  method : (ledger.methods destination).filter (fun method => method.name = name)
    = (ledger.method? destination name).toList
  hasMethod : ledger.hasMethod destination name = (ledger.method? destination name).isSome
  hasMethod_listed : ledger.hasMethod destination name = true ↔
    name ∈ (ledger.methods destination).map Method.name
  /-- Methods are listed as their registrations are. -/
  methodNames : (ledger.methods destination).map Method.name
    = (ledger.latestBindings destination).map Registration.name
  /-- A method has one call shape, which carries the signature of the registration that is found. -/
  shape : ∀ r, ledger.latest? destination name = some r → ∃ method shape,
    ledger.method? destination name = some method ∧ method.declaringType = destination ∧
      method.name = name ∧ method.shapes = [shape] ∧ shape.parameters = r.signature.parameters ∧
      shape.variadic = r.signature.variadic ∧ shape.returns = r.signature.returns

theorem Counted.answers (h : ledger.Counted) (destination name : String) :
    Answers ledger.log ledger destination name where
  listed := filter_latestBindings ledger destination name
  absent := latest?_eq_none_iff
  greatest _ := h.latest?_eq_some_iff
  names := names_latestBindings ledger destination
  distinct := by
    rw [names_latestBindings]
    exact nodup_eraseDups _
  method := filter_methods ledger destination name
  hasMethod := (Option.isSome_map).symm
  hasMethod_listed := hasMethod_iff
  methodNames := by rw [names_methods, names_latestBindings]
  shape := by
    intro r hr
    obtain ⟨-, hdestination, hname⟩ := mem_bindings_of_latest? hr
    refine ⟨.ofRegistration r, .ofSignature r.signature, ?_, hdestination, hname, rfl, rfl, rfl, rfl⟩
    rw [method?, hr, Option.map_some]

/-- **Look-ups and listings agree.** In either mode and after every history of records and resets, what a
ledger finds for a name of a destination is the one registration of that name that it lists, nothing
exactly if the name was not recorded since the last reset, and otherwise the registration with the
greatest number; names are listed once, where they were first recorded; and methods agree with the
registrations that they are made of. -/
theorem lookup_agrees (mode : Mode) (history : List Request) (destination name : String) :
    Answers (recorded (transcript perform (new mode) history)) (after perform (new mode) history)
      destination name := by
  rw [← log_after]
  exact (counted_after mode history).answers destination name

end Ledger

end Graft
