/-
What the fingerprint of a ledger tells.

The fingerprint is the digest of a text with one line for every registration, grouped by destination.
The fields of a line are free texts, and the signature is put down the way people read it. If no
field contains what ends it, the lines are found again in the text; then the text tells, for every
destination, the outlines of its registrations in their order. What a type checker is told depends on
the whole signature of the latest registration of a name, and the outline of a signature is less than
that: it does not tell the type `int` from a type that is named so.

The main statement says that this is the only gap. Among ledgers that can be taken apart and whose
latest signatures are plain the fingerprint determines all that is written for a type checker, and
every ledger with a latest signature that is not plain has the text of another one whose methods are
different.
-/
import Graft.Artifact
import Graft.Proofs.LatestBindings
import Graft.Proofs.SignatureText

set_option autoImplicit false

namespace Graft

open Text

/-! ## 1. Lines -/

/-- What the line of a registration shows. -/
structure Registration.Outline where
  destination : String
  name : String
  signature : Signature.Outline
  source : Provenance
  deriving DecidableEq

/-- The outline of a registration; its number is not shown. -/
def Registration.outline (r : Registration) : Outline :=
  ⟨r.destination, r.name, r.signature.outline, r.source⟩

/-- The fields of a registration end where its line says that they end, and the outline of its
signature can be found in the text of it. -/
structure Registration.Delimited (r : Registration) : Prop where
  destination : '\x00' ∉ r.destination.toList
  name : '\x00' ∉ r.name.toList
  text : '\x00' ∉ r.signature.text.toList
  source : '\n' ∉ r.source.text.toList
  signature : r.signature.Delimited

/-- The registration that an outline is read as; any number will do. -/
def Registration.Outline.read (o : Outline) : Registration :=
  ⟨o.destination, o.name, o.signature.read, o.source, 0⟩

/-- The registration with its signature taken for what its text reads as. -/
def Registration.reread (r : Registration) : Registration :=
  { r with signature := r.signature.outline.read }

theorem Registration.outline_reread (r : Registration) : r.reread.outline = r.outline := by
  unfold outline reread
  rw [Signature.outline_read]

theorem Registration.Delimited.reread {r : Registration} (h : r.Delimited) :
    r.reread.Delimited where
  destination := h.destination
  name := h.name
  text := by
    rw [Signature.toList_text]
    show '\x00' ∉ r.signature.outline.read.outline.text
    rw [Signature.outline_read, ← Signature.toList_text]
    exact h.text
  source := h.source
  signature := by
    show ∀ part ∈ r.signature.outline.read.outline.parts, part.Delimited
    rw [Signature.outline_read]
    exact h.signature

theorem Provenance.text_injective {p q : Provenance} (h : p.text = q.text) : p = q := by
  have hlists : p.text.toList = q.text.toList := by rw [h]
  cases p <;> cases q <;> simp [Provenance.text] at hlists ⊢
  all_goals exact String.toList_inj.mp hlists

namespace Ledger

theorem toList_line (r : Registration) :
    (line r).toList = r.destination.toList ++ '\x00' :: (r.name.toList ++ '\x00' ::
      (r.signature.text.toList ++ '\x00' :: (r.source.text.toList ++ ['\n']))) := by
  simp [line]

/-- A line shows no more than the outline. -/
theorem line_eq_of_outline_eq {r q : Registration} (h : r.outline = q.outline) :
    line r = line q := by
  obtain ⟨hdest, hname, hsig, hsource⟩ := Registration.Outline.mk.inj h
  have htext : r.signature.text = q.signature.text := by
    rw [← String.toList_inj, Signature.toList_text, Signature.toList_text, hsig]
  rw [line, line, hdest, hname, htext, hsource]

theorem lines_eq_of_outlines_eq {rs qs : List Registration}
    (h : rs.map Registration.outline = qs.map Registration.outline) :
    rs.map line = qs.map line := by
  induction rs generalizing qs with
  | nil =>
    rw [List.map_nil, eq_comm, List.map_eq_nil_iff] at h
    rw [h]
  | cons r rs ih =>
    obtain ⟨q, qs, rfl, hfirst, hrest⟩ := List.map_eq_cons_iff.mp h.symm
    rw [List.map_cons, List.map_cons, line_eq_of_outline_eq hfirst.symm, ih hrest.symm]

/-- The outline of the first registration is found in a text of lines, and the rest of the text. -/
theorem line_append_inj {r q : Registration} (hr : r.Delimited) (hq : q.Delimited)
    {rest rest' : List Char} (h : (line r).toList ++ rest = (line q).toList ++ rest') :
    r.outline = q.outline ∧ rest = rest' := by
  simp only [toList_line, List.append_assoc, List.cons_append] at h
  -- Field by field, each up to the character that ends it.
  obtain ⟨hdest, h⟩ := append_inj_of_not_mem hr.destination hq.destination h
  obtain ⟨hname, h⟩ := append_inj_of_not_mem hr.name hq.name h
  obtain ⟨htext, h⟩ := append_inj_of_not_mem hr.text hq.text h
  obtain ⟨hsource, h⟩ := append_inj_of_not_mem hr.source hq.source h
  refine ⟨?_, h⟩
  unfold Registration.outline
  rw [String.toList_inj.mp hdest, String.toList_inj.mp hname,
    Signature.outline_eq_of_text_eq hr.signature hq.signature (String.toList_inj.mp htext),
    Provenance.text_injective (String.toList_inj.mp hsource)]

/-- Delimited registrations are found again in the text of their lines. The induction is on the
registrations: a line ends before the next one starts. -/
theorem outlines_eq_of_join_eq {rs qs : List Registration} (hrs : ∀ r ∈ rs, r.Delimited)
    (hqs : ∀ q ∈ qs, q.Delimited) (h : String.join (rs.map line) = String.join (qs.map line)) :
    rs.map Registration.outline = qs.map Registration.outline := by
  have hlists : rs.flatMap (fun r => (line r).toList) = qs.flatMap (fun q => (line q).toList) := by
    simpa only [String.toList_join, List.flatMap_map] using congrArg String.toList h
  clear h
  have hne (r : Registration) (rest : List Char) : (line r).toList ++ rest ≠ [] := by
    rw [toList_line]
    simp
  induction rs generalizing qs with
  | nil =>
    cases qs with
    | nil => rfl
    | cons q qs => exact absurd hlists.symm (hne q _)
  | cons r rs ih =>
    cases qs with
    | nil => exact absurd hlists (hne r _)
    | cons q qs =>
      obtain ⟨hr, hrs⟩ := List.forall_mem_cons.mp hrs
      obtain ⟨hq, hqs⟩ := List.forall_mem_cons.mp hqs
      rw [List.flatMap_cons, List.flatMap_cons] at hlists
      obtain ⟨hfirst, hlists⟩ := line_append_inj hr hq hlists
      rw [List.map_cons, List.map_cons, hfirst, ih hrs hqs hlists]

/-! ## 2. The registrations by destination -/

/-- The registrations in the order of their lines. -/
def grouped (ledger : Ledger) : List Registration := ledger.destinations.flatMap ledger.bindings

theorem fingerprintText_eq (ledger : Ledger) :
    ledger.fingerprintText = String.join (ledger.grouped.map line) := by
  rw [fingerprintText, grouped, List.map_flatMap]

theorem nodup_destinations (ledger : Ledger) : ledger.destinations.Nodup := OrderedSet.nodup _

/-- The destinations are those of the groups, in their order. -/
theorem destinations_eq (ledger : Ledger) : ledger.destinations
    = (OrderedSet.ofList (ledger.grouped.map Registration.destination)).toList := by
  have hblock : ∀ d ∈ ledger.destinations,
      (ledger.bindings d).map Registration.destination ≠ [] ∧
        ∀ e ∈ (ledger.bindings d).map Registration.destination, e = d := by
    intro d hd
    obtain ⟨r, hr, rfl⟩ := mem_destinations.mp hd
    refine ⟨List.ne_nil_of_mem (List.mem_map_of_mem (mem_bindings.mpr ⟨hr, rfl⟩)), ?_⟩
    intro e he
    obtain ⟨q, hq, rfl⟩ := List.mem_map.mp he
    exact (mem_bindings.mp hq).2
  have hnodup := ledger.nodup_destinations
  rw [grouped, List.map_flatMap]
  generalize ledger.destinations = ds at hblock hnodup
  induction ds using List.reverseRecOn with
  | nil => rfl
  | append_singleton before d ih =>
    obtain ⟨hbefore, -, hapart⟩ := List.nodup_append.mp hnodup
    obtain ⟨hne, hall⟩ := hblock d (by simp)
    have hrec := ih (fun e he => hblock e (List.mem_append_left _ he)) hbefore
    -- The next group belongs to a new destination, so it adds one element at the end.
    have hnew : ¬ d ∈ OrderedSet.ofList
        (before.flatMap fun e => (ledger.bindings e).map Registration.destination) := by
      intro hd
      have hd : d ∈ before := by
        rw [hrec]
        exact hd
      exact hapart d hd d (by simp) rfl
    rw [List.flatMap_append, List.flatMap_singleton, OrderedSet.toList_ofList_append hall hne hnew,
      ← hrec]

/-- A group is what the lines show for its destination. -/
theorem bindings_eq (ledger : Ledger) (d : String) :
    ledger.bindings d = ledger.grouped.filter (fun r => r.destination = d) := by
  have hgroup (e : String) : (ledger.bindings e).filter (fun r => r.destination = d)
      = if e = d then ledger.bindings d else [] := by
    rw [bindings, bindings, List.filter_filter]
    split
    · next hed =>
      subst hed
      exact List.filter_congr fun r _ => Bool.and_self _
    · next hed =>
      refine List.filter_eq_nil_iff.mpr fun r _ h => hed ?_
      obtain ⟨hd, he⟩ : r.destination = d ∧ r.destination = e := by simpa using h
      exact he.symm.trans hd
  have hpick : ∀ ds : List String, ds.Nodup →
      ds.flatMap (fun e => if e = d then ledger.bindings d else [])
        = if d ∈ ds then ledger.bindings d else [] := by
    intro ds hds
    induction ds with
    | nil => rfl
    | cons e rest ih =>
      obtain ⟨he, hrest⟩ := List.nodup_cons.mp hds
      rw [List.flatMap_cons, ih hrest]
      by_cases hed : e = d
      · subst hed
        rw [if_pos rfl, if_neg he, if_pos List.mem_cons_self, List.append_nil]
      · rw [if_neg hed, List.nil_append]
        simp only [List.mem_cons, Ne.symm hed, false_or]
  rw [grouped, List.filter_flatMap]
  simp only [hgroup]
  rw [hpick _ ledger.nodup_destinations]
  split
  · rfl
  · next hd =>
    refine List.eq_nil_iff_forall_not_mem.mpr fun r hr => hd ?_
    exact mem_destinations.mpr ⟨r, mem_bindings.mp hr⟩

/-- The lines stand for every registration once. -/
theorem grouped_perm (ledger : Ledger) : ledger.grouped.Perm ledger.log := by
  have hgroups : ∀ (ds : List String) (log : List Registration), ds.Nodup →
      (∀ r ∈ log, r.destination ∈ ds) →
        (ds.flatMap fun d => log.filter fun r => r.destination = d).Perm log := by
    intro ds
    induction ds with
    | nil =>
      intro log _ hall
      rw [List.eq_nil_iff_forall_not_mem.mpr fun r hr => List.not_mem_nil (hall r hr)]
      exact .refl _
    | cons d rest ih =>
      intro log hnodup hall
      obtain ⟨hd, hrest⟩ := List.nodup_cons.mp hnodup
      -- The groups of the other destinations only need what is left without this one.
      have hleft : ∀ e ∈ rest, (log.filter fun r => r.destination = e)
          = (log.filter fun r => !decide (r.destination = d)).filter
              fun r => r.destination = e := by
        intro e he
        rw [List.filter_filter]
        refine List.filter_congr fun r _ => ?_
        by_cases hre : r.destination = e
        · have hne : e ≠ d := fun heq => hd (heq ▸ he)
          simp [hre, hne]
        · simp [hre]
      have hothers : ∀ r ∈ log.filter fun r => !decide (r.destination = d),
          r.destination ∈ rest := by
        intro r hr
        obtain ⟨hr, hne⟩ := List.mem_filter.mp hr
        exact (List.mem_cons.mp (hall r hr)).resolve_left (by simpa using hne)
      rw [List.flatMap_cons, List.flatMap_congr hleft]
      exact ((ih _ hrest hothers).append_left _).trans (List.filter_append_perm _ log)
  exact hgroups _ _ ledger.nodup_destinations fun r hr => mem_destinations.mpr ⟨r, hr, rfl⟩

theorem length_line_pos (r : Registration) : 0 < (line r).length := by
  rw [line, String.length_append]
  exact Nat.lt_add_left _ (by decide)

/-- The text is made of the characters of all lines. -/
theorem fingerprintText_perm (ledger : Ledger) :
    ledger.fingerprintText.toList.Perm (ledger.log.flatMap fun r => (line r).toList) := by
  rw [fingerprintText_eq, String.toList_join, List.flatMap_map]
  exact ledger.grouped_perm.flatMap_right _

/-- A ledger that was only added to has another text. -/
theorem log_eq_of_fingerprintText_eq {ledger later : Ledger} (h : ledger.log <+: later.log)
    (htext : ledger.fingerprintText = later.fingerprintText) : ledger.log = later.log := by
  obtain ⟨more, hmore⟩ := h
  cases more with
  | nil => rw [← hmore, List.append_nil]
  | cons r rest =>
    have hlength := ledger.fingerprintText_perm.symm.length_eq.trans
      (htext ▸ later.fingerprintText_perm.length_eq)
    -- What was added has at least one line, and a line is not empty.
    rw [← hmore, List.flatMap_append, List.length_append, List.flatMap_cons, List.length_append,
      String.length_toList] at hlength
    have hline := length_line_pos r
    omega

/-- All that the fingerprint shows of a ledger. -/
def outline (ledger : Ledger) : List Registration.Outline :=
  ledger.grouped.map Registration.outline

/-- The text of a ledger shows its outline, and nothing else. -/
theorem fingerprintText_eq_iff {l k : Ledger} (hl : ∀ r ∈ l.log, r.Delimited)
    (hk : ∀ r ∈ k.log, r.Delimited) :
    l.fingerprintText = k.fingerprintText ↔ l.outline = k.outline := by
  have hgrouped {ledger : Ledger} (h : ∀ r ∈ ledger.log, r.Delimited) :
      ∀ r ∈ ledger.grouped, r.Delimited := by
    intro r hr
    obtain ⟨d, -, hr⟩ := List.mem_flatMap.mp hr
    exact h r (mem_bindings.mp hr).1
  rw [fingerprintText_eq, fingerprintText_eq]
  constructor
  · exact outlines_eq_of_join_eq (hgrouped hl) (hgrouped hk)
  · intro h
    rw [lines_eq_of_outlines_eq h]

theorem destinations_eq_of_outline_eq {l k : Ledger} (h : l.outline = k.outline) :
    l.destinations = k.destinations := by
  have hdest (ledger : Ledger) : ledger.grouped.map Registration.destination
      = ledger.outline.map Registration.Outline.destination := by
    rw [outline, List.map_map]
    rfl
  rw [destinations_eq, destinations_eq, hdest, hdest, h]

theorem outlines_bindings_eq {l k : Ledger} (h : l.outline = k.outline) (d : String) :
    (l.bindings d).map Registration.outline = (k.bindings d).map Registration.outline := by
  have hgroup (ledger : Ledger) : (ledger.bindings d).map Registration.outline
      = ledger.outline.filter (fun o => o.destination = d) := by
    rw [bindings_eq, outline, List.filter_map]
    rfl
  rw [hgroup, hgroup, h]

/-! ## 3. Methods -/

/-- A ledger whose lines are found again in the text of its fingerprint. -/
def Delimited (ledger : Ledger) : Prop := ∀ r ∈ ledger.log, r.Delimited

/-- A ledger whose latest signatures hide nothing from their texts. -/
def Plain (ledger : Ledger) : Prop :=
  ∀ d, ∀ r ∈ ledger.latestBindings d, r.signature.Plain

/-- The outlines of the latest registrations are told by those of all registrations. -/
theorem outlines_latestBindings_eq {l k : Ledger} (h : l.outline = k.outline) (d : String) :
    (l.latestBindings d).map Registration.outline
      = (k.latestBindings d).map Registration.outline := by
  have hpairs (ledger : Ledger) :
      (ledger.bindings d).map (fun r => (r.name, r.outline))
        = ((ledger.bindings d).map Registration.outline).map (fun o => (o.name, o)) := by
    rw [List.map_map]
    rfl
  rw [map_latestBindings, map_latestBindings, hpairs, hpairs, outlines_bindings_eq h]

/-- A method is told by the outline of its registration if that has a plain signature. -/
theorem ofRegistration_read {r : Registration} (h : r.signature.Plain) :
    Method.ofRegistration r.outline.read = Method.ofRegistration r := by
  unfold Method.ofRegistration
  rw [show r.outline.read.signature = r.signature from Signature.read_outline h]
  rfl

theorem signature_eq_of_method_eq {r q : Registration}
    (h : Method.ofRegistration r = Method.ofRegistration q) : r.signature = q.signature := by
  have hshapes : [CallShape.ofSignature r.signature] = [CallShape.ofSignature q.signature] :=
    congrArg Method.shapes h
  obtain ⟨-, -, hparameters, hvariadic, hreturns⟩ := CallShape.mk.inj (List.cons.inj hshapes).1
  show Signature.mk r.signature.parameters r.signature.variadic r.signature.returns
    = Signature.mk q.signature.parameters q.signature.variadic q.signature.returns
  rw [Signature.mk.injEq]
  exact ⟨hparameters, hvariadic, hreturns⟩

/-- With plain signatures the outline tells the methods. -/
theorem methods_eq_of_outline_eq {l k : Ledger} (hl : l.Plain) (hk : k.Plain)
    (h : l.outline = k.outline) (d : String) : l.methods d = k.methods d := by
  have hmethods {ledger : Ledger} (hplain : ledger.Plain) : ledger.methods d
      = ((ledger.latestBindings d).map Registration.outline).map
          (fun o => Method.ofRegistration o.read) := by
    rw [methods, List.map_map]
    exact List.map_congr_left fun r hr => (ofRegistration_read (hplain d r hr)).symm
  rw [hmethods hl, hmethods hk, outlines_latestBindings_eq h]

/-- What is written depends on the ledger through its destinations, its methods and its
fingerprint. -/
theorem generate_congr {l k : Ledger} (htext : l.fingerprintText = k.fingerprintText)
    (hdest : l.destinations = k.destinations) (hmethods : ∀ d, l.methods d = k.methods d)
    {m : Type → Type} [Monad m] [Host m] (space : Namespace) (output : Path) :
    (Artifact.generate l space output : ExceptT ArtifactError m Artifact.Report)
      = Artifact.generate k space output := by
  have hsheets : Artifact.sheets l = Artifact.sheets k := by
    unfold Artifact.sheets
    simp only [Artifact.described_eq, hdest, hmethods]
  have hfingerprint : l.fingerprint = k.fingerprint := by rw [fingerprint, htext, fingerprint]
  unfold Artifact.generate
  rw [hsheets, hfingerprint]

/-! ## 4. A plain ledger of the same text -/

/-- The ledger with every signature taken for what its text reads as. -/
def reread (ledger : Ledger) : Ledger := { ledger with log := ledger.log.map Registration.reread }

theorem bindings_reread (ledger : Ledger) (d : String) :
    ledger.reread.bindings d = (ledger.bindings d).map Registration.reread := by
  rw [bindings, bindings, reread, List.filter_map]
  rfl

theorem destinations_reread (ledger : Ledger) :
    ledger.reread.destinations = ledger.destinations := by
  rw [destinations, destinations, reread, List.map_map]
  rfl

theorem outline_reread (ledger : Ledger) : ledger.reread.outline = ledger.outline := by
  have hgroup : ∀ d ∈ ledger.destinations,
      (ledger.reread.bindings d).map Registration.outline
        = (ledger.bindings d).map Registration.outline := by
    intro d _
    rw [bindings_reread, List.map_map]
    exact List.map_congr_left fun r _ => r.outline_reread
  rw [outline, outline, grouped, grouped, List.map_flatMap, List.map_flatMap, destinations_reread]
  exact List.flatMap_congr hgroup

theorem latestBindings_reread (ledger : Ledger) (d : String) :
    ledger.reread.latestBindings d = (ledger.latestBindings d).map Registration.reread := by
  rw [map_latestBindings, latestBindings, bindings_reread, List.map_map]
  rfl

theorem plain_reread (ledger : Ledger) : ledger.reread.Plain := by
  intro d r hr
  rw [latestBindings_reread] at hr
  obtain ⟨q, -, rfl⟩ := List.mem_map.mp hr
  exact Signature.plain_read _

theorem Delimited.reread {ledger : Ledger} (h : ledger.Delimited) : ledger.reread.Delimited := by
  intro r hr
  obtain ⟨q, hq, rfl⟩ := List.mem_map.mp hr
  exact (h q hq).reread

/-- A ledger tells the same methods as its rereading only if it is plain. -/
theorem plain_of_methods_reread {ledger : Ledger}
    (h : ∀ d, ledger.reread.methods d = ledger.methods d) : ledger.Plain := by
  intro d r hr
  have hmethods := h d
  rw [methods, methods, latestBindings_reread, List.map_map] at hmethods
  have hsame : Method.ofRegistration r.reread = Method.ofRegistration r :=
    List.map_inj_left.mp hmethods r hr
  rw [← signature_eq_of_method_eq hsame]
  exact Signature.plain_read _

/-- **The fingerprint determines what a type checker is told exactly as far as signatures are
plain.** Take a ledger whose lines can be taken apart. Its latest signatures are plain exactly when
every such ledger with plain latest signatures and with the same text under the digest has the same
destinations and the same methods, and leads to the same artifacts on every machine. -/
theorem plain_iff_fingerprint_determines {l : Ledger} (hl : l.Delimited) :
    l.Plain ↔ ∀ k : Ledger, k.Delimited → k.Plain → k.fingerprintText = l.fingerprintText →
      k.destinations = l.destinations ∧ (∀ d, k.methods d = l.methods d) ∧
        ∀ {m : Type → Type} [Monad m] [Host m] (space : Namespace) (output : Path),
          (Artifact.generate k space output : ExceptT ArtifactError m Artifact.Report)
            = Artifact.generate l space output := by
  constructor
  · intro hplain k hk hkplain htext
    have houtline : k.outline = l.outline := (fingerprintText_eq_iff hk hl).mp htext
    have hdest := destinations_eq_of_outline_eq houtline
    have hmethods := methods_eq_of_outline_eq hkplain hplain houtline
    exact ⟨hdest, hmethods, generate_congr htext hdest hmethods⟩
  · intro h
    -- The ledger with reread signatures is one of those that the text must tell apart.
    have htext : l.reread.fingerprintText = l.fingerprintText :=
      (fingerprintText_eq_iff hl.reread hl).mpr l.outline_reread
    exact plain_of_methods_reread (h l.reread hl.reread l.plain_reread htext).2.1

/-- A ledger with one registration. -/
def one (destination name : String) (signature : Signature) : Ledger :=
  ((new .enabled).record destination name signature .handler).2

/-- A ledger with the registration `(sep: string, ...parts?: list<app::Part>) -> ?string`. -/
def joining : Ledger :=
  one "app::Text" "join" ⟨[⟨"sep", .string, false⟩, ⟨"parts", .list (.named "app::Part"), true⟩],
    true, .nullable .string⟩

/-- Whatever plain ledger has the text of this one has its destination and its methods. -/
theorem fingerprint_determines_joining :
    joining.Delimited ∧ joining.Plain ∧
      ∀ k : Ledger, k.Delimited → k.Plain → k.fingerprintText = joining.fingerprintText →
        k.destinations = ["app::Text"] ∧ ∀ d, k.methods d = joining.methods d := by
  have hdelimited : joining.Delimited := by
    intro r hr
    obtain rfl := List.mem_singleton.mp hr
    refine ⟨by decide +kernel, by decide +kernel, by decide +kernel, by decide +kernel, ?_⟩
    have hparts : ∀ part ∈ [Signature.Part.mk "sep" "string", ⟨"...parts?", "list<app::Part>"⟩],
        part.Delimited := by
      rw [List.forall_mem_cons, List.forall_mem_singleton]
      constructor
      · constructor <;> decide +kernel
      · constructor <;> decide +kernel
    exact hparts
  have hplain : joining.Plain := by
    intro d r hr
    obtain rfl := List.mem_singleton.mp (mem_log_of_mem_latestBindings hr)
    refine ⟨trivial, ?_, by decide +kernel, fun _ _ _ => rfl, fun _ => List.cons_ne_nil _ _⟩
    show ∀ p ∈ [Parameter.mk "sep" .string false, ⟨"parts", .list (.named "app::Part"), true⟩],
      p.hint.Plain
    rw [List.forall_mem_cons, List.forall_mem_singleton]
    have hnamed : ¬ Hint.Disguised "app::Part" := by decide +kernel
    exact ⟨trivial, hnamed⟩
  refine ⟨hdelimited, hplain, fun k hk hkplain htext => ?_⟩
  obtain ⟨hdest, hmethods, -⟩ :=
    (plain_iff_fingerprint_determines hdelimited).mp hplain k hk hkplain htext
  refine ⟨?_, hmethods⟩
  rw [hdest]
  decide +kernel

/-- The text does not tell the hint `int` from a type of that name, nor a separator from a name that
contains it: here two ledgers with different methods, and two with different destinations, have the
same text. -/
theorem fingerprint_shared :
    (one "T" "op" ⟨[], false, .int⟩).fingerprintText
        = (one "T" "op" ⟨[], false, .named "int"⟩).fingerprintText ∧
      (one "T" "op" ⟨[], false, .int⟩).methods "T"
        ≠ (one "T" "op" ⟨[], false, .named "int"⟩).methods "T" ∧
      (one "T" "a\x00b" {}).fingerprintText = (one "T\x00a" "b" {}).fingerprintText ∧
      (one "T" "a\x00b" {}).destinations ≠ (one "T\x00a" "b" {}).destinations := by
  refine ⟨by decide +kernel, ?_, by decide +kernel, by decide +kernel⟩
  intro h
  have hreturns := congrArg (List.map fun method => method.shapes.map CallShape.returns) h
  exact absurd hreturns (by decide +kernel)

end Ledger

end Graft
