/-
Registrations of different destinations that take turns.

All registrations go into one log, whatever their destination, and each takes the next number. So the log
and the numbers tell how the registrations of different destinations took turns. Nothing that is written
for a type checker does: it is put together destination by destination, from the faces of the
registrations, and a face has everything but the number.

Two histories may thus differ in every number and still come to the same, if every destination got the
same records in the same order and if the destinations first came up in the same order. The second is
needed as well, for the text of the fingerprint and the names of the files follow the order of the
destinations.

The main statement is `Ledger.analysis_of_interleaved`.
-/
import Graft.Proofs.Agreement
import Graft.Proofs.LedgerHistory

set_option autoImplicit false

namespace Graft

namespace Ledger

/-! ## 1. What was asked to be recorded -/

/-- The face of what a request asks to be recorded. -/
def Request.face? : Request → Option Face
  | .record destination name signature source => some ⟨destination, name, signature, source⟩
  | .reset => none

/-- The faces of what was asked to be recorded since the last reset. -/
def asked (history : List Request) : List Face :=
  (history.reverse.takeWhile (fun request => !request.isReset)).reverse.filterMap Request.face?

theorem asked_reset (history : List Request) : asked (history ++ [.reset]) = [] := by
  rw [asked, List.reverse_append]
  rfl

theorem asked_record (history : List Request) (destination name : String) (signature : Signature)
    (source : Provenance) :
    asked (history ++ [.record destination name signature source])
      = asked history ++ [⟨destination, name, signature, source⟩] := by
  rw [asked, List.reverse_append, List.reverse_singleton, List.singleton_append,
    List.takeWhile_cons_of_pos rfl, List.reverse_cons, List.filterMap_append]
  rfl

/-- The run lemma: an enabled ledger has the faces of what it was asked to record. The induction is on
the history from its end, where a reset cuts off all that came before. -/
theorem faces_log_after (history : List Request) :
    (after perform (new .enabled) history).log.map Registration.face = asked history := by
  induction history using List.reverseRecOn with
  | nil => rfl
  | append_singleton before request ih =>
    have hmode : (after perform (new .enabled) before).mode = .enabled := mode_after _ _
    rw [after_concat]
    cases request with
    | reset =>
      rw [asked_reset]
      rfl
    | record destination name signature source =>
      rw [asked_record, ← ih, perform, log_record hmode, List.map_append]
      rfl

/-! ## 2. What faces determine -/

end Ledger

/-- A registration with a given face. Any number will do. -/
def Face.registration (f : Face) : Registration := ⟨f.destination, f.name, f.signature, f.source, 0⟩

namespace Ledger

variable {ledger other : Ledger}

/-- The faces of the registrations for a destination. -/
def facesFor (ledger : Ledger) (destination : String) : List Face :=
  (ledger.bindings destination).map Registration.face

theorem facesFor_eq_filter (ledger : Ledger) (destination : String) :
    ledger.facesFor destination
      = (ledger.log.map Registration.face).filter (fun f => f.destination = destination) := by
  rw [facesFor, bindings, List.filter_map]
  rfl

theorem destinations_eq_faces (ledger : Ledger) : ledger.destinations
    = ((ledger.log.map Registration.face).map Face.destination).eraseDups := by
  rw [destinations, OrderedSet.toList_ofList, List.map_map]
  rfl

/-- The text of the fingerprint is made of faces: no line shows a number. -/
theorem fingerprintText_eq_faces (ledger : Ledger) : ledger.fingerprintText
    = String.join (ledger.destinations.flatMap fun d =>
        (ledger.facesFor d).map fun f => line f.registration) := by
  have hlines : ∀ d, (ledger.bindings d).map line
      = (ledger.facesFor d).map (fun f => line f.registration) := by
    intro d
    rw [facesFor, List.map_map]
    rfl
  rw [fingerprintText]
  simp only [hlines]

/-- Methods are made of faces. The latest registration of a name is told by the names alone, so faces
tell which registrations the methods are made of, and no method shows a number. -/
theorem methods_eq_faces (ledger : Ledger) (destination : String) : ledger.methods destination
    = (OrderedMap.ofList ((ledger.facesFor destination).map fun f =>
        (f.name, Method.ofRegistration f.registration))).values := by
  rw [methods, map_latestBindings, facesFor, List.map_map]
  rfl

/-- Two ledgers are the same to a type checker, and in all but the numbers of their registrations. -/
structure AnalysedAlike (ledger other : Ledger) : Prop where
  destinations : ledger.destinations = other.destinations
  /-- The same text is hashed, ... -/
  fingerprintText : ledger.fingerprintText = other.fingerprintText
  /-- ... so the fingerprint is the same. -/
  fingerprint : ledger.fingerprint = other.fingerprint
  methods : ∀ destination, ledger.methods destination = other.methods destination
  /-- Generating artifacts does the same on every machine: the same files are written with the same
  bytes, the index among them, and it ends in the same way. -/
  generate : ∀ {m : Type → Type} [Monad m] [Host m] (space : Namespace) (output : Path),
    (Artifact.generate ledger space output : ExceptT ArtifactError m Artifact.Report)
      = Artifact.generate other space output
  /-- The registrations for a destination differ in their numbers at most. -/
  bindings : ∀ destination, (ledger.bindings destination).map Registration.face
    = (other.bindings destination).map Registration.face

/-- Destinations and faces are all that an analysis depends on. -/
theorem analysedAlike_of_faces (hdestinations : ledger.destinations = other.destinations)
    (hfaces : ∀ destination, ledger.facesFor destination = other.facesFor destination) :
    AnalysedAlike ledger other := by
  have htext : ledger.fingerprintText = other.fingerprintText := by
    rw [fingerprintText_eq_faces, fingerprintText_eq_faces, hdestinations]
    simp only [hfaces]
  have hmethods : ∀ destination, ledger.methods destination = other.methods destination := by
    intro destination
    rw [methods_eq_faces, methods_eq_faces, hfaces]
  have hfingerprint : ledger.fingerprint = other.fingerprint := by
    rw [fingerprint, fingerprint, htext]
  exact ⟨hdestinations, htext, hfingerprint, hmethods,
    fun space output => generate_congr htext hdestinations hmethods space output, hfaces⟩

/-! ## 3. Taking turns -/

/-- Two sequences of records differ at most in how those for different destinations take turns. -/
structure Interleaved (first second : List Face) : Prop where
  /-- Every destination gets the same records in the same order, ... -/
  sent : ∀ destination, first.filter (fun f => f.destination = destination)
    = second.filter (fun f => f.destination = destination)
  /-- ... and the destinations first come up in the same order. -/
  order : (first.map Face.destination).eraseDups = (second.map Face.destination).eraseDups

/-- **An analysis does not depend on how registrations take turns.** After any two histories of records
and resets of an enabled ledger, if what was recorded since the last reset differs only in how the records
of different destinations took turns, then destinations, fingerprint, methods and artifacts are the same,
and the registrations differ in their numbers at most. -/
theorem analysis_of_interleaved {first second : List Request}
    (h : Interleaved (asked first) (asked second)) :
    AnalysedAlike (after perform (new .enabled) first) (after perform (new .enabled) second) := by
  apply analysedAlike_of_faces
  · rw [destinations_eq_faces, destinations_eq_faces, faces_log_after, faces_log_after]
    exact h.order
  · intro destination
    rw [facesFor_eq_filter, facesFor_eq_filter, faces_log_after, faces_log_after]
    exact h.sent destination

/-- What came in turns, now destination by destination. -/
def grouping : List Request :=
  [.record "U" "first" {} .handler, .record "U" "third" {} .handler, .record "T" "second" {} .handler]

/-- The second record has another number if the third one comes before it, and the same fingerprint. -/
theorem analysis_of_interleaved_turns :
    Interleaved (asked turns) (asked grouping) ∧
      (after perform (new .enabled) turns).fingerprint
        = (after perform (new .enabled) grouping).fingerprint ∧
      ((after perform (new .enabled) turns).bindings "T").map Registration.sequence = [1] ∧
      ((after perform (new .enabled) grouping).bindings "T").map Registration.sequence = [2] := by
  have hinterleaved : Interleaved (asked turns) (asked grouping) := by
    refine ⟨?_, by decide⟩
    intro destination
    by_cases hT : "T" = destination
    · subst hT
      decide
    · -- Without the record for `T` the two are the same.
      have hturns : asked turns = [⟨"U", "first", {}, .handler⟩, ⟨"T", "second", {}, .handler⟩,
          ⟨"U", "third", {}, .handler⟩] := rfl
      have hgrouping : asked grouping = [⟨"U", "first", {}, .handler⟩, ⟨"U", "third", {}, .handler⟩,
          ⟨"T", "second", {}, .handler⟩] := rfl
      rw [hturns, hgrouping]
      simp only [List.filter_cons, List.filter_nil, hT, decide_false, Bool.false_eq_true, if_false]
  exact ⟨hinterleaved, (analysis_of_interleaved hinterleaved).fingerprint, by decide, by decide⟩

end Ledger

end Graft
