/-
A ledger loses nothing.

What a ledger holds is told by the requests that were made of it and by its replies: a record is answered
with the number of the registration, a reset with nothing. The registrations since the last reset, each
with the number that it was answered with, are the log of the ledger, in both modes. An enabled ledger
answers every record, and numbers from zero without gaps.

A ledger shows its registrations by destination only. They come from one log, though, and the numbers
rise along it, so all of them together, sorted by their numbers, are the log again. This holds of a ledger
that is kept on shelves as well, which answers the same and shows the same after every history.

The main statement is `Ledger.nothing_lost`.
-/
import Graft.Proofs.Shelves
import Mathlib.Data.List.Nodup

set_option autoImplicit false

namespace Graft

namespace Ledger

/-! ## 1. Requests and their replies -/

/-- What may be asked of a ledger. -/
inductive Request
  | record (destination name : String) (signature : Signature) (source : Provenance)
  | reset
  deriving DecidableEq

/-- Whether a request is a reset. -/
def Request.isReset : Request → Bool
  | .record _ _ _ _ => false
  | .reset => true

/-- The registration that a request amounts to when it is answered with a number. -/
def Request.registration? : Request → Option Nat → Option Registration
  | .record destination name signature source, some number =>
    some ⟨destination, name, signature, source, number⟩
  | _, _ => none

/-- A request with the reply to it. -/
abbrev Event := Request × Option Nat

/-- The reply to a request, and the ledger after it. -/
def perform (ledger : Ledger) : Request → Option Nat × Ledger
  | .record destination name signature source => ledger.record destination name signature source
  | .reset => (none, ledger.reset)

end Ledger

/-- The reply to a request, and the shelves after it. -/
def Shelves.perform (shelves : Shelves) : Ledger.Request → Option Nat × Shelves
  | .record destination name signature source => shelves.record destination name signature source
  | .reset => (none, shelves.reset)

namespace Ledger

section

variable {σ τ : Type} (step : σ → Request → Option Nat × σ)

/-- The state after a history of requests. -/
def after (start : σ) (history : List Request) : σ :=
  history.foldl (fun state request => (step state request).2) start

/-- A history of requests with the replies to them. -/
def transcript (start : σ) : List Request → List Event
  | [] => []
  | request :: rest =>
    (request, (step start request).1) :: transcript (step start request).2 rest

theorem after_concat (start : σ) (history : List Request) (request : Request) :
    after step start (history ++ [request]) = (step (after step start history) request).2 := by
  rw [after, List.foldl_append]
  rfl

theorem transcript_concat (start : σ) (history : List Request) (request : Request) :
    transcript step start (history ++ [request])
      = transcript step start history ++ [(request, (step (after step start history) request).1)] := by
  induction history generalizing start with
  | nil => rfl
  | cons first rest ih =>
    rw [List.cons_append, transcript, ih, transcript, List.cons_append]
    rfl

variable {step} {step' : τ → Request → Option Nat × τ} {f : σ → τ}

/-- Two ways to keep a ledger give the same replies after every history, and states that belong to each
other, if they do after one request. -/
theorem simulates (h : ∀ state request,
    step' (f state) request = ((step state request).1, f (step state request).2)) (start : σ)
    (history : List Request) :
    transcript step' (f start) history = transcript step start history ∧
      after step' (f start) history = f (after step start history) := by
  induction history generalizing start with
  | nil => exact ⟨rfl, rfl⟩
  | cons request rest ih =>
    obtain ⟨htranscript, hafter⟩ := ih (step start request).2
    have hreply : (step' (f start) request).1 = (step start request).1 := by rw [h]
    have hnext : (step' (f start) request).2 = f (step start request).2 := by rw [h]
    constructor
    · rw [transcript, transcript, hreply, hnext, htranscript]
    · rw [← hnext] at hafter
      exact hafter

end

/-- Shelves do what their ledger does. -/
theorem perform_shelved (ledger : Ledger) (request : Request) :
    ledger.shelved.perform request = ((ledger.perform request).1, (ledger.perform request).2.shelved) := by
  cases request with
  | record destination name signature source =>
    exact shelved_record ledger destination name signature source
  | reset => rw [perform, Shelves.perform, shelved_reset]

/-! ## 2. What was recorded -/

/-- The events since the last reset. -/
def sinceReset (events : List Event) : List Event :=
  (events.reverse.takeWhile (fun event => !event.1.isReset)).reverse

/-- The registrations since the last reset, with the numbers that they were answered with. -/
def recorded (events : List Event) : List Registration :=
  (sinceReset events).filterMap (fun event => event.1.registration? event.2)

theorem sinceReset_concat (events : List Event) (event : Event) :
    sinceReset (events ++ [event])
      = if event.1.isReset = true then [] else sinceReset events ++ [event] := by
  rw [sinceReset, List.reverse_append, List.reverse_singleton, List.singleton_append,
    List.takeWhile_cons]
  by_cases h : event.1.isReset = true
  · rw [if_pos h, h]
    rfl
  · rw [if_neg h, Bool.eq_false_iff.mpr h]
    exact List.reverse_cons

/-- A reset leaves nothing recorded. -/
theorem recorded_reset (events : List Event) (reply : Option Nat) :
    recorded (events ++ [(.reset, reply)]) = [] := by
  rw [recorded, sinceReset_concat]
  rfl

/-- A record adds what it is answered with. -/
theorem recorded_record (events : List Event) (destination name : String) (signature : Signature)
    (source : Provenance) (reply : Option Nat) :
    recorded (events ++ [(.record destination name signature source, reply)])
      = recorded events ++
          ((Request.record destination name signature source).registration? reply).toList := by
  have hkept : sinceReset (events ++ [(.record destination name signature source, reply)])
      = sinceReset events ++ [(.record destination name signature source, reply)] := by
    rw [sinceReset_concat]
    exact if_neg Bool.false_ne_true
  rw [recorded, hkept, List.filterMap_append, ← recorded]
  cases reply <;> rfl

theorem mode_perform (ledger : Ledger) (request : Request) :
    (ledger.perform request).2.mode = ledger.mode := by
  cases request with
  | record destination name signature source => exact mode_record _ _ _ _ _
  | reset => rfl

/-- A ledger keeps its mode. -/
theorem mode_after (ledger : Ledger) (history : List Request) :
    (after perform ledger history).mode = ledger.mode := by
  induction history using List.reverseRecOn with
  | nil => rfl
  | append_singleton before request ih => rw [after_concat, mode_perform, ih]

/-- The run lemma: the log of a ledger is what was recorded since the last reset. The induction is on
the history from its end, and a ledger that records nothing answers with nothing. -/
theorem log_after (mode : Mode) (history : List Request) :
    (after perform (new mode) history).log = recorded (transcript perform (new mode) history) := by
  induction history using List.reverseRecOn with
  | nil => rfl
  | append_singleton before request ih =>
    rw [after_concat, transcript_concat]
    have hmode := mode_after (new mode) before
    generalize after perform (new mode) before = ledger at ih hmode ⊢
    cases request with
    | reset =>
      rw [recorded_reset]
      rfl
    | record destination name signature source =>
      rw [recorded_record, ← ih]
      cases mode with
      | disabled =>
        have hreply : ledger.record destination name signature source = (none, ledger) := by
          rw [record, hmode]
          rfl
        rw [perform, hreply]
        exact (List.append_nil _).symm
      | enabled =>
        have hreply : (ledger.record destination name signature source).1
            = some ledger.log.length := by
          rw [record, hmode]
          rfl
        rw [perform, log_record hmode, hreply]
        rfl

/-! ## 3. Numbers -/

/-- The registrations of a ledger are numbered from zero, in their order. -/
def Counted (ledger : Ledger) : Prop :=
  ledger.log.map Registration.sequence = List.range ledger.log.length

/-- The step lemma: a record takes the next number, and a reset starts again. -/
theorem counted_perform {ledger : Ledger} (h : ledger.Counted) (request : Request) :
    (ledger.perform request).2.Counted := by
  cases request with
  | reset => rfl
  | record destination name signature source =>
    cases hmode : ledger.mode with
    | disabled =>
      have hsame : (ledger.record destination name signature source).2 = ledger := by
        rw [record, hmode]
      rw [perform, hsame]
      exact h
    | enabled =>
      rw [perform, Counted, log_record hmode, List.map_append, h, List.length_append,
        List.length_singleton, List.range_succ]
      rfl

theorem counted_after (mode : Mode) (history : List Request) :
    (after perform (new mode) history).Counted := by
  induction history using List.reverseRecOn with
  | nil => rfl
  | append_singleton before request ih =>
    rw [after_concat]
    exact counted_perform ih request

/-- Later registrations have greater numbers. -/
theorem Counted.increasing {ledger : Ledger} (h : ledger.Counted) :
    ledger.log.Pairwise (fun r q => r.sequence < q.sequence) := by
  rw [← List.pairwise_map, h]
  exact List.pairwise_lt_range

theorem Counted.increasing_bindings {ledger : Ledger} (h : ledger.Counted) (destination : String) :
    (ledger.bindings destination).Pairwise (fun r q => r.sequence < q.sequence) :=
  h.increasing.filter _

/-- A number stands for one registration. -/
theorem Counted.eq_of_sequence_eq {ledger : Ledger} (h : ledger.Counted) {r q : Registration}
    (hr : r ∈ ledger.log) (hq : q ∈ ledger.log) (heq : r.sequence = q.sequence) : r = q := by
  have hnodup : (ledger.log.map Registration.sequence).Nodup := by
    rw [h]
    exact List.nodup_range
  exact List.inj_on_of_nodup_map hnodup hr hq heq

/-- The registrations of all destinations, sorted by their numbers, are the log. -/
theorem Counted.mergeSort_grouped {ledger : Ledger} (h : ledger.Counted) :
    ledger.grouped.mergeSort (fun r q => r.sequence ≤ q.sequence) = ledger.log := by
  have hperm : (ledger.grouped.mergeSort (fun r q => r.sequence ≤ q.sequence)).Perm ledger.log :=
    (List.mergeSort_perm _ _).trans ledger.grouped_perm
  have hsorted : (ledger.grouped.mergeSort (fun r q => r.sequence ≤ q.sequence)).Pairwise
      (fun r q => r.sequence ≤ q.sequence) := by
    have htrans : ∀ a b c : Registration, decide (a.sequence ≤ b.sequence) = true →
        decide (b.sequence ≤ c.sequence) = true → decide (a.sequence ≤ c.sequence) = true := by
      intro a b c hab hbc
      exact decide_eq_true (Nat.le_trans (of_decide_eq_true hab) (of_decide_eq_true hbc))
    have htotal : ∀ a b : Registration,
        (decide (a.sequence ≤ b.sequence) || decide (b.sequence ≤ a.sequence)) = true := by
      intro a b
      rw [Bool.or_eq_true, decide_eq_true_iff, decide_eq_true_iff]
      exact Nat.le_total _ _
    have hsort := List.pairwise_mergeSort htrans htotal ledger.grouped
    exact hsort.imp fun hle => of_decide_eq_true hle
  have hlog : ledger.log.Pairwise (fun r q => r.sequence ≤ q.sequence) :=
    h.increasing.imp fun hlt => Nat.le_of_lt hlt
  refine hperm.eq_of_pairwise ?_ hsorted hlog
  -- Two registrations that may stand in either order have one number.
  intro r q hr hq hle hge
  exact h.eq_of_sequence_eq (hperm.mem_iff.mp hr) hq (Nat.le_antisymm hle hge)

/-! ## 4. Nothing is lost -/

/-- What is shown holds all records and nothing else. -/
structure Complete (records : List Registration) (shown : Shown) : Prop where
  /-- The registrations of all destinations, merged by their numbers, are the records in their
  order, ... -/
  merged : (shown.destinations.flatMap shown.bindings).mergeSort
    (fun r q => r.sequence ≤ q.sequence) = records
  /-- ... which are numbered from zero without gaps. -/
  numbered : records.map Registration.sequence = List.range records.length
  /-- For a destination its records are shown, in their order, ... -/
  bindings : ∀ destination,
    shown.bindings destination = records.filter (fun r => r.destination = destination)
  /-- ... with rising numbers. -/
  increasing : ∀ destination,
    (shown.bindings destination).Pairwise (fun r q => r.sequence < q.sequence)
  /-- Every destination with a record is listed once, where it first came, ... -/
  destinations : shown.destinations = (records.map Registration.destination).eraseDups
  /-- ... and no other one. -/
  occupied : ∀ destination, destination ∈ shown.destinations ↔ shown.bindings destination ≠ []
  size : shown.size = records.length

theorem Counted.complete {ledger : Ledger} (h : ledger.Counted) :
    Complete ledger.log ledger.shown where
  merged := h.mergeSort_grouped
  numbered := h
  bindings _ := rfl
  increasing := h.increasing_bindings
  destinations := OrderedSet.toList_ofList _
  occupied destination := by
    show destination ∈ ledger.destinations ↔ ledger.bindings destination ≠ []
    rw [mem_destinations]
    constructor
    · rintro ⟨r, hr, hdestination⟩
      exact List.ne_nil_of_mem (mem_bindings.mpr ⟨hr, hdestination⟩)
    · intro hne
      obtain ⟨r, hr⟩ := List.exists_mem_of_ne_nil _ hne
      exact ⟨r, mem_bindings.mp hr⟩
  size := rfl

/-- An enabled ledger answers every record with a number. -/
theorem isSome_of_mem_transcript {ledger : Ledger} (hmode : ledger.mode = .enabled)
    {history : List Request} {event : Event} (h : event ∈ transcript perform ledger history)
    (hrecord : event.1.isReset = false) : event.2.isSome = true := by
  induction history generalizing ledger with
  | nil => exact absurd h List.not_mem_nil
  | cons request rest ih =>
    rcases List.mem_cons.mp h with rfl | hin
    · cases request with
      | reset => cases hrecord
      | record destination name signature source =>
        show (ledger.record destination name signature source).1.isSome = true
        rw [record, hmode]
        rfl
    · exact ih ((mode_perform ledger request).trans hmode) hin

/-- **A ledger loses, repeats and reorders nothing.** After every history of records and resets an
enabled ledger has answered every record with a number; what it shows of all destinations, merged by the
numbers, are the records since the last reset in their order and with the numbers that they were answered
with, which are zero, one, two and so on; and a ledger that is kept on shelves gives the same answers and
shows the same. -/
theorem nothing_lost (history : List Request) :
    (∀ event ∈ transcript perform (new .enabled) history,
        event.1.isReset = false → event.2.isSome = true) ∧
      Complete (recorded (transcript perform (new .enabled) history))
        (after perform (new .enabled) history).shown ∧
      transcript Shelves.perform (.new .enabled) history
        = transcript perform (new .enabled) history ∧
      (after Shelves.perform (.new .enabled) history).shown
        = (after perform (new .enabled) history).shown := by
  obtain ⟨htranscript, hafter⟩ := simulates perform_shelved (new .enabled) history
  rw [shelved_new] at htranscript hafter
  refine ⟨fun event => isSome_of_mem_transcript rfl, ?_, htranscript, ?_⟩
  · rw [← log_after]
    exact (counted_after .enabled history).complete
  · rw [hafter, shown_shelved]

/-- Registrations for two destinations in turn, after a reset. -/
def turns : List Request :=
  [.record "T" "lost" {} .handler, .reset, .record "U" "first" {} .handler,
    .record "T" "second" {} .handler, .record "U" "third" {} .handler]

/-- What came in turns is found on two shelves and comes back in one order. -/
theorem nothing_lost_turns :
    (Request.record "T" "second" {} .handler, some 1) ∈ transcript perform (new .enabled) turns ∧
      (some 1 : Option Nat).isSome = true ∧
      (after Shelves.perform (.new .enabled) turns).destinations = ["U", "T"] ∧
      (((after perform (new .enabled) turns).shown.destinations.flatMap
          (after perform (new .enabled) turns).shown.bindings).mergeSort
            (fun r q => r.sequence ≤ q.sequence)).map Registration.name
        = ["first", "second", "third"] := by
  have hin : (Request.record "T" "second" {} .handler, some 1)
      ∈ transcript perform (new .enabled) turns := by
    decide
  obtain ⟨hanswered, hcomplete, -, hshelves⟩ := nothing_lost turns
  refine ⟨hin, hanswered _ hin rfl, ?_, ?_⟩
  · have hsame := congrArg Shown.destinations hshelves
    rw [hcomplete.destinations] at hsame
    exact hsame.trans rfl
  · rw [hcomplete.merged]
    rfl

end Ledger

end Graft
