/-
When the artifacts of a run have files of their own.

A destination gets its readable stem if that is free and not reserved for the index, and otherwise
the readable stem with the start of its own digest behind it. The digest keeps suffixed stems apart
from one another, and a readable stem is only given away while it is free; what is left is a
destination that is *spelled* like the suffixed stem of a later one. Such a destination takes its
readable stem first, the later one falls back on its suffixed stem without looking whether it is
free, and the two share a file.

The main statement says that this is the only way: with digests that differ in their first sixteen
digits the stems of a run are pairwise distinct exactly when nobody is forestalled in that way.
-/
import Graft.Artifact
import Mathlib.Data.List.Infix
import Mathlib.Data.List.Nodup

set_option autoImplicit false

namespace Graft.Artifact

/-! ## 1. The two stems of a destination -/

/-- Whether a stem is reserved for the index. -/
def Reserved (stem : String) : Prop := stem.toList.head? = some '_'

instance (stem : String) : Decidable (Reserved stem) :=
  inferInstanceAs (Decidable (stem.toList.head? = some '_'))

/-- The stem that a destination falls back on. -/
def suffixed (destination : String) : String :=
  stem destination ++ "-" ++ Sha256.shortHexOfText destination

/-- A claim is one of the two stems, and which one depends on what is taken only by membership. -/
theorem claim_eq (taken : List String) (destination : String) :
    claim taken destination =
      if Reserved (stem destination) ∨ stem destination ∈ taken then suffixed destination
      else stem destination := rfl

theorem toList_suffixed (destination : String) :
    (suffixed destination).toList
      = ((stem destination).toList ++ ['-']) ++ (Sha256.shortHexOfText destination).toList := by
  simp [suffixed]

/-- The digest is the end of a suffixed stem, so two equal ones are of equal digests. This is where
the fixed number of digits matters: nothing else marks where the digest starts. -/
theorem shortHex_eq_of_suffixed_eq {d e : String} (h : suffixed d = suffixed e) :
    Sha256.shortHexOfText d = Sha256.shortHexOfText e := by
  have hlists : (suffixed d).toList = (suffixed e).toList := by rw [h]
  rw [toList_suffixed, toList_suffixed] at hlists
  have hlen : (Sha256.shortHexOfText d).toList.length
      = (Sha256.shortHexOfText e).toList.length := by
    rw [Sha256.length_toList_shortHexOfText, Sha256.length_toList_shortHexOfText]
  exact String.toList_inj.mp (List.append_inj' hlists hlen).2

/-- The suffix goes behind the stem and leaves its first character alone. An empty stem gets a
hyphen in front, which is not reserved either. -/
theorem reserved_suffixed (destination : String) :
    Reserved (suffixed destination) ↔ Reserved (stem destination) := by
  unfold Reserved
  rw [toList_suffixed]
  cases (stem destination).toList with
  | nil => simp
  | cons c cs => simp

/-! ## 2. What is handed out in a run -/

theorem claim_congr {taken others : List String} (h : ∀ s, s ∈ taken ↔ s ∈ others)
    (destination : String) : claim taken destination = claim others destination := by
  simp only [claim_eq, h]

/-- The last destination of a run claims against everything that was handed out before it. -/
theorem claimAll_append_singleton (taken destinations : List String) (d : String) :
    claimAll taken (destinations ++ [d])
      = claimAll taken destinations ++ [claim (claimAll taken destinations ++ taken) d] := by
  induction destinations generalizing taken with
  | nil => rfl
  | cons e rest ih =>
    simp only [List.cons_append, claimAll]
    rw [ih]
    have hmem : ∀ s, s ∈ claimAll (claim taken e :: taken) rest ++ claim taken e :: taken
        ↔ s ∈ claim taken e :: (claimAll (claim taken e :: taken) rest ++ taken) := by
      intro s
      simp only [List.mem_append, List.mem_cons]
      tauto
    rw [claim_congr hmem d]

/-- The induction principle of a run: its last claim against all before it. -/
theorem claimAll_concat (destinations : List String) (d : String) :
    claimAll [] (destinations ++ [d])
      = claimAll [] destinations ++ [claim (claimAll [] destinations) d] := by
  rw [claimAll_append_singleton, List.append_nil]

/-- Everything that is handed out is the readable stem of a destination, and then not reserved, or
its suffixed stem. -/
theorem eq_of_mem_claimAll {destinations : List String} {s : String}
    (h : s ∈ claimAll [] destinations) :
    ∃ d ∈ destinations, (s = stem d ∧ ¬ Reserved s) ∨ s = suffixed d := by
  induction destinations using List.reverseRecOn with
  | nil => exact absurd h List.not_mem_nil
  | append_singleton before d ih =>
    rw [claimAll_concat, List.mem_append, List.mem_singleton] at h
    rcases h with h | h
    · obtain ⟨e, he, hs⟩ := ih h
      exact ⟨e, List.mem_append_left _ he, hs⟩
    · refine ⟨d, by simp, ?_⟩
      rw [claim_eq] at h
      split at h
      · exact .inr h
      · next hfree => exact .inl ⟨h, fun hr => hfree (.inl (h ▸ hr))⟩

/-- A readable stem that is not reserved is gone after its destination has claimed: whoever had it
before, somebody has it now. -/
theorem stem_mem_claimAll {destinations : List String} {d : String} (h : d ∈ destinations)
    (hr : ¬ Reserved (stem d)) : stem d ∈ claimAll [] destinations := by
  induction destinations using List.reverseRecOn with
  | nil => exact absurd h List.not_mem_nil
  | append_singleton before e ih =>
    rw [claimAll_concat, List.mem_append]
    rcases List.mem_append.mp h with hb | he
    · exact .inl (ih hb)
    · obtain rfl : d = e := List.mem_singleton.mp he
      rw [claim_eq]
      by_cases ht : stem d ∈ claimAll [] before
      · exact .inl ht
      · rw [if_neg (by tauto)]
        exact .inr (List.mem_singleton.mpr rfl)

/-! ## 3. When stems are distinct -/

/-- A destination is forestalled by those before it when its readable stem, though not reserved, is
gone, and one of the others has for its readable stem what this one falls back on. -/
def Forestalled (before : List String) (d : String) : Prop :=
  ¬ Reserved (stem d) ∧ stem d ∈ claimAll [] before ∧ suffixed d ∈ before.map stem

/-- A claim gives out what is taken exactly when the destination is forestalled. -/
theorem claim_mem_iff_forestalled {before : List String} {d : String}
    (hd : Sha256.shortHexOfText d ∉ before.map Sha256.shortHexOfText) :
    claim (claimAll [] before) d ∈ claimAll [] before ↔ Forestalled before d := by
  constructor
  · intro hmem
    rw [claim_eq] at hmem
    split at hmem
    · next hwhy =>
      obtain ⟨e, he, hs⟩ := eq_of_mem_claimAll hmem
      rcases hs with ⟨hs, hfree⟩ | hs
      · have hr : ¬ Reserved (stem d) := fun h => hfree ((reserved_suffixed d).mpr h)
        exact ⟨hr, hwhy.resolve_left hr, List.mem_map.mpr ⟨e, he, hs.symm⟩⟩
      · -- Two suffixed stems: their digests agree, which is excluded.
        exact absurd (List.mem_map.mpr ⟨e, he, (shortHex_eq_of_suffixed_eq hs).symm⟩) hd
    · next hfree => exact absurd (.inr hmem) hfree
  · rintro ⟨hr, htaken, hspelled⟩
    rw [claim_eq, if_pos (.inr htaken)]
    obtain ⟨e, he, hs⟩ := List.mem_map.mp hspelled
    have hre : ¬ Reserved (stem e) := by rw [hs, reserved_suffixed]; exact hr
    rw [← hs]
    exact stem_mem_claimAll he hre

/-- Nobody in a run is forestalled by those before it. -/
def NoneForestalled (destinations : List String) : Prop :=
  ∀ before d, before ++ [d] <+: destinations → ¬ Forestalled before d

/-- The run lemma. The induction is from the right, since a claim looks at all claims before it. -/
theorem nodup_claimAll_iff {destinations : List String}
    (hp : (destinations.map Sha256.shortHexOfText).Nodup) :
    (claimAll [] destinations).Nodup ↔ NoneForestalled destinations := by
  induction destinations using List.reverseRecOn with
  | nil => simp [claimAll, NoneForestalled]
  | append_singleton before d ih =>
    rw [List.map_append, List.nodup_append] at hp
    obtain ⟨hbefore, -, hapart⟩ := hp
    have hd : Sha256.shortHexOfText d ∉ before.map Sha256.shortHexOfText :=
      fun h => hapart _ h _ (by simp) rfl
    have hlast : (claimAll [] before ++ [claim (claimAll [] before) d]).Nodup
        ↔ (claimAll [] before).Nodup ∧ ¬ Forestalled before d := by
      rw [← claim_mem_iff_forestalled hd, List.nodup_append]
      simp only [List.nodup_singleton, true_and, List.mem_singleton, forall_eq]
      exact and_congr_right fun _ =>
        ⟨fun h hm => h _ hm rfl, fun h s hs e => h (e ▸ hs)⟩
    rw [claimAll_concat, hlast, ih hbefore]
    constructor
    · rintro ⟨hearlier, hnow⟩ others e hstart
      rcases List.prefix_concat_iff.mp hstart with heq | hstart
      · obtain ⟨rfl, rfl⟩ : others = before ∧ e = d := by simpa using List.append_inj' heq rfl
        exact hnow
      · exact hearlier others e hstart
    · intro h
      exact ⟨fun others e hstart => h others e (hstart.trans (List.prefix_append _ _)),
        h before d (List.prefix_refl _)⟩

theorem length_claimAll (taken destinations : List String) :
    (claimAll taken destinations).length = destinations.length := by
  induction destinations generalizing taken with
  | nil => rfl
  | cons d rest ih => rw [claimAll, List.length_cons, List.length_cons, ih]

/-- The files of the sheets are the stems with an extension. -/
theorem map_file_sheets (ledger : Ledger) :
    (sheets ledger).map Sheet.file = (claimAll [] ledger.destinations).map (· ++ ".json") := by
  have hsnd : (ledger.destinations.zip (claimAll [] ledger.destinations)).map Prod.snd
      = claimAll [] ledger.destinations :=
    List.map_snd_zip (by rw [length_claimAll])
  rw [sheets, described_eq, List.map_map]
  conv_rhs => rw [← hsnd, List.map_map]
  rfl

/-- The files are as distinct as the stems. -/
theorem nodup_files_iff (ledger : Ledger) :
    ((sheets ledger).map Sheet.file).Nodup ↔ (claimAll [] ledger.destinations).Nodup := by
  rw [map_file_sheets]
  refine List.nodup_map_iff ?_
  intro a b h
  have hlists : (a ++ ".json").toList = (b ++ ".json").toList := by
    have h' : a ++ ".json" = b ++ ".json" := h
    rw [h']
  simp only [String.toList_append] at hlists
  exact String.toList_inj.mp (List.append_cancel_right hlists)

/-- **Destinations share a file exactly when one is forestalled.** With digests that differ in their
first sixteen digits, the stems claimed in a run are pairwise distinct, and so are the files of every
ledger with these destinations, exactly when no destination finds its readable stem gone and its
suffixed stem spelled by an earlier destination. -/
theorem artifact_files_distinct_iff {destinations : List String}
    (hp : (destinations.map Sha256.shortHexOfText).Nodup) :
    ((claimAll [] destinations).Nodup ↔ NoneForestalled destinations) ∧
      ∀ ledger : Ledger, ledger.destinations = destinations →
        (((sheets ledger).map Sheet.file).Nodup ↔ NoneForestalled destinations) := by
  refine ⟨nodup_claimAll_iff hp, ?_⟩
  rintro ledger rfl
  rw [nodup_files_iff]
  exact nodup_claimAll_iff hp

theorem shortHex_dotted : Sha256.shortHexOfText "a.b" = "2e7336dc8eba87ef" := by decide +kernel

theorem shortHex_coloned : Sha256.shortHexOfText "a::b" = "78f0be89237d77f7" := by decide +kernel

/-- Two destinations that read alike have files of their own. -/
theorem artifact_files_distinct_alike :
    (["a.b", "a::b"].map Sha256.shortHexOfText).Nodup ∧
      (((claimAll [] ["a.b", "a::b"]).Nodup ↔ NoneForestalled ["a.b", "a::b"]) ∧
        ∀ ledger : Ledger, ledger.destinations = ["a.b", "a::b"] →
          (((sheets ledger).map Sheet.file).Nodup ↔ NoneForestalled ["a.b", "a::b"])) := by
  have hp : (["a.b", "a::b"].map Sha256.shortHexOfText).Nodup := by
    simp only [List.map_cons, List.map_nil, shortHex_dotted, shortHex_coloned]
    decide
  exact ⟨hp, artifact_files_distinct_iff hp⟩

/-- Three different destinations with different digests share two files: the first is spelled like
the suffixed stem of the last, whose readable stem the second has taken. -/
theorem artifact_file_shared :
    ["a.b-78f0be89237d77f7", "a.b", "a::b"].Nodup ∧
      (["a.b-78f0be89237d77f7", "a.b", "a::b"].map Sha256.shortHexOfText).Nodup ∧
      claimAll [] ["a.b-78f0be89237d77f7", "a.b", "a::b"]
        = ["a.b-78f0be89237d77f7", "a.b", "a.b-78f0be89237d77f7"] ∧
      ¬ (claimAll [] ["a.b-78f0be89237d77f7", "a.b", "a::b"]).Nodup := by
  have hspelled : Sha256.shortHexOfText "a.b-78f0be89237d77f7" = "5f10c732b0892c93" := by
    decide +kernel
  have hclaims : claimAll [] ["a.b-78f0be89237d77f7", "a.b", "a::b"]
      = ["a.b-78f0be89237d77f7", "a.b", "a.b-78f0be89237d77f7"] := by
    simp only [claimAll, claim, hspelled, shortHex_dotted, shortHex_coloned]
    decide +kernel
  refine ⟨by decide, ?_, hclaims, ?_⟩
  · simp only [List.map_cons, List.map_nil, hspelled, shortHex_dotted, shortHex_coloned]
    decide
  · rw [hclaims]
    decide

end Graft.Artifact
