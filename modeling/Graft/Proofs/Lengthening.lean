/-
Every record lengthens the text of the fingerprint.

The text has a line for each registration, grouped by destination, so a new line may come to stand
anywhere in it; and since names are free texts, it need not be possible to tell the lines apart. What can
be told is how long the text is: as long as all of its lines together, wherever they stand. A line is never
empty, so each record makes the text longer, also one that repeats an earlier one.

From one reset of a registry to the next its ledger is only added to. So in that time the text tells how
many registrations there are, the fingerprint changes in the moments in which something is installed and in
no others, and one that was left does not come back. For the digest to be as good as the text, it has to
tell apart the texts that come up.

The main statement is `Registry.registration_noticed`.
-/
import Graft.Proofs.Batches
import Graft.Proofs.FailedRegistration
import Graft.Proofs.FingerprintText
import Graft.Proofs.Invocation

set_option autoImplicit false

namespace Graft

namespace Ledger

variable {ledger later : Ledger}

/-! ## 1. The length of the text -/

/-- The text is as long as the lines of all registrations together. -/
theorem length_fingerprintText (ledger : Ledger) : ledger.fingerprintText.length
    = (ledger.log.flatMap fun r => (line r).toList).length := by
  rw [← String.length_toList]
  exact ledger.fingerprintText_perm.length_eq

/-- The step lemma: a record adds the length of its line, wherever in the text that stands. -/
theorem length_fingerprintText_record (h : ledger.mode = .enabled) (destination name : String)
    (signature : Signature) (source : Provenance) :
    (ledger.record destination name signature source).2.fingerprintText.length
      = ledger.fingerprintText.length
        + (line (ledger.nextRegistration destination name signature source)).length := by
  rw [length_fingerprintText, length_fingerprintText, log_record h, List.flatMap_append,
    List.length_append, List.flatMap_singleton, String.length_toList]

/-- A ledger with more registrations than it had has a longer text. -/
theorem length_fingerprintText_lt (h : ledger.log <+: later.log) (hsize : ledger.size < later.size) :
    ledger.fingerprintText.length < later.fingerprintText.length := by
  obtain ⟨more, hmore⟩ := h
  rw [size, size, ← hmore, List.length_append] at hsize
  cases more with
  | nil => exact absurd hsize (Nat.lt_irrefl _)
  | cons r rest =>
    have hline := length_line_pos r
    rw [length_fingerprintText, length_fingerprintText, ← hmore, List.flatMap_append,
      List.length_append, List.flatMap_cons, List.length_append, String.length_toList]
    omega

/-- The texts of a ledger that was only added to tell how many registrations there were, and nothing
else. -/
theorem fingerprintText_eq_iff_size (h : ledger.log <+: later.log) :
    ledger.fingerprintText = later.fingerprintText ↔ ledger.size = later.size := by
  constructor
  · intro htext
    rw [size, size, log_eq_of_fingerprintText_eq h htext]
  · intro hsize
    have hlog : ledger.log = later.log := h.eq_of_length hsize
    unfold fingerprintText destinations bindings
    rw [hlog]

/-- A text that was left does not come back: a ledger in between has as many registrations as the two
around it. -/
theorem fingerprintText_between {past present future : Ledger} (hfirst : past.log <+: present.log)
    (hlast : present.log <+: future.log) (hback : future.fingerprintText = past.fingerprintText) :
    present.fingerprintText = past.fingerprintText := by
  have hsize : past.size = future.size :=
    (fingerprintText_eq_iff_size (hfirst.trans hlast)).mp hback.symm
  have hno_less : past.size ≤ present.size := hfirst.length_le
  have hno_more : present.size ≤ future.size := hlast.length_le
  exact ((fingerprintText_eq_iff_size hfirst).mpr (by omega)).symm

/-- Of two ledgers that came one after the other, one has the registrations of the other. -/
theorem nested_of_pairwise {seen : List Ledger}
    (h : seen.Pairwise fun ledger later => ledger.log <+: later.log) :
    ∀ ledger ∈ seen, ∀ other ∈ seen, ledger.log <+: other.log ∨ other.log <+: ledger.log := by
  have hpairs : seen.Pairwise fun ledger other =>
      ledger.log <+: other.log ∨ other.log <+: ledger.log := h.imp .inl
  intro ledger hledger other hother
  exact hpairs.forall_of_forall_of_flip (fun _ _ => .inl (List.prefix_refl _)) (h.imp .inr)
    hledger hother

/-! ## 2. Batches -/

/-- A ledger becomes another one by recording a batch of so many operations. -/
def Takes (ledger later : Ledger) (count : Nat) : Prop :=
  ∃ (destination : String) (source : Provenance) (handlers : List (String × Handler)),
    later = handlers.foldl (Registry.recordOne destination source) ledger ∧ count = handlers.length

theorem takes_zero (ledger : Ledger) : ledger.Takes ledger 0 := ⟨"", .handler, [], rfl, rfl⟩

theorem Takes.grows {count : Nat} (h : ledger.Takes later count) : ledger.log <+: later.log := by
  obtain ⟨destination, source, handlers, rfl, -⟩ := h
  induction handlers generalizing ledger with
  | nil => exact List.prefix_refl _
  | cons entry rest ih =>
    rw [List.foldl_cons]
    exact (log_record_grows ledger destination entry.1 entry.2.signature source).trans ih

theorem Takes.size_eq {count : Nat} (h : ledger.Takes later count) (hmode : ledger.mode = .enabled) :
    later.size = ledger.size + count := by
  obtain ⟨destination, source, handlers, rfl, rfl⟩ := h
  exact Registry.size_foldl_recordOne destination source handlers hmode

end Ledger

/-! ## 3. What a moment does to the ledger -/

/-- Whether a registry is reset. -/
def Deed.isReset : Deed → Bool
  | .served .reset _ => true
  | _ => false

/-- How many operations are installed. The reply tells it. -/
def Deed.installed : Deed → Nat
  | .served _ (.registered (.ok count)) => count
  | .served _ (.registeredOperation (.ok ())) => 1
  | _ => 0

/-- The ledgers that are seen in some moments, in the order in which they come about. -/
def ledgers {σ : Type} (ms : List (Moment σ)) : List Ledger :=
  ms.flatMap fun m => [m.before.1.ledger, m.after.1.ledger]

theorem ledgers_cons {σ : Type} (m : Moment σ) (rest : List (Moment σ)) :
    ledgers (m :: rest) = m.before.1.ledger :: m.after.1.ledger :: ledgers rest := rfl

theorem before_mem_ledgers {σ : Type} {m : Moment σ} {ms : List (Moment σ)} (hm : m ∈ ms) :
    m.before.1.ledger ∈ ledgers ms :=
  List.mem_flatMap.mpr ⟨m, hm, List.mem_cons_self⟩

theorem after_mem_ledgers {σ : Type} {m : Moment σ} {ms : List (Moment σ)} (hm : m ∈ ms) :
    m.after.1.ledger ∈ ledgers ms :=
  List.mem_flatMap.mpr ⟨m, hm, List.mem_cons_of_mem _ List.mem_cons_self⟩

/-- No change of a registry changes whether registrations are recorded. -/
theorem Registry.stable_mode (mode : Ledger.Mode) : Stable fun r => r.ledger.mode = mode where
  declare _ _ h := h
  define _ _ _ h := h
  rewrap _ _ h := h
  install destination handlers source h :=
    (mode_foldl_recordOne destination source handlers _).trans h
  reset h := h

section

variable {σ : Type} [Host (StateM σ)] {m : Moment σ} {ms : List (Moment σ)}
variable {start finish : Registry × σ}

/-- What the primitive changes keep is kept by every moment. -/
theorem Moment.Faithful.keeps {P : Registry → Prop} (h : m.Faithful) (hP : Registry.Stable P)
    (hbefore : P m.before.1) : P m.after.1 := by
  rcases h.cases with ⟨-, hsame⟩ | ⟨use, reply, -, -, hserve⟩
  · rw [hsame]
    exact hbefore
  · exact hP.of_perform (Use.perform_of_serve 0 hserve) hbefore

/-- The step lemma: unless the registry is reset, the ledger takes as many operations as the reply says
were installed. -/
theorem Moment.Faithful.takes (h : m.Faithful) (hreset : m.deed.isReset = false) :
    m.before.1.ledger.Takes m.after.1.ledger m.deed.installed := by
  -- Where nothing is installed the ledger stays.
  have hstays (hledger : m.after.1.ledger = m.before.1.ledger) (hinstalled : m.deed.installed = 0) :
      m.before.1.ledger.Takes m.after.1.ledger m.deed.installed := by
    rw [hledger, hinstalled]
    exact Ledger.takes_zero _
  rcases h.cases with ⟨hother, hsame⟩ | ⟨use, reply, hserved, hcall, hserve⟩
  · refine hstays (by rw [hsame]) ?_
    cases hdeed : m.deed with
    | served use reply => exact absurd hdeed (hother use reply)
    | _ => rfl
  · rw [hserved] at hreset hstays ⊢
    rcases Use.serve_cases hcall hserve with ⟨_, _, rfl, rfl, hafter⟩ | ⟨_, _, _, rfl, rfl, hafter⟩ |
      ⟨destination, unit, result, rfl, rfl, hreg⟩ |
      ⟨destination, name, handler, result, rfl, rfl, hreg⟩ | ⟨_, _, rfl, rfl, hafter⟩ | ⟨rfl, -, -⟩
    · exact hstays (by rw [hafter]; rfl) rfl
    · exact hstays (by rw [hafter]; rfl) rfl
    · rcases Registry.register_cases hreg with ⟨_, -, rfl, hafter, -⟩ |
        ⟨-, _, _, _, _, -, ⟨_, -, rfl, -, hafter⟩ | ⟨i, -, rfl, hafter⟩⟩
      · exact hstays (by rw [hafter]) rfl
      · exact hstays (by rw [hafter]) rfl
      · rw [hafter]
        exact ⟨destination, Registry.provenance unit i, i.interface.entries, rfl, rfl⟩
    · rcases Registry.registerOperation_cases hreg with ⟨_, -, rfl, hafter, -⟩ | ⟨-, rfl, hafter⟩
      · exact hstays (by rw [hafter]) rfl
      · rw [hafter]
        exact ⟨destination, .handler, [(name, handler)], rfl, rfl⟩
    · exact hstays (by rw [hafter]) rfl
    · cases hreset

/-! ## 4. From one reset to the next -/

/-- The run lemma: as long as there is no reset, every ledger has the registrations of those before
it. -/
theorem Chained.pairwise_ledgers (h : Chained start ms finish) (hfaithful : ∀ m ∈ ms, m.Faithful)
    (hreset : ∀ m ∈ ms, m.deed.isReset = false) :
    (start.1.ledger :: ledgers ms).Pairwise fun ledger later => ledger.log <+: later.log := by
  induction ms generalizing start with
  | nil => exact List.pairwise_singleton _ _
  | cons m rest ih =>
    obtain ⟨rfl, hrest⟩ := h
    obtain ⟨hm, hfaithful⟩ := List.forall_mem_cons.mp hfaithful
    obtain ⟨hmreset, hreset⟩ := List.forall_mem_cons.mp hreset
    have hstep : m.before.1.ledger.log <+: m.after.1.ledger.log := (hm.takes hmreset).grows
    have hlater := ih hrest hfaithful hreset
    have hall : ∀ ledger ∈ m.after.1.ledger :: ledgers rest,
        m.before.1.ledger.log <+: ledger.log := by
      intro ledger hledger
      rcases List.mem_cons.mp hledger with rfl | hin
      · exact hstep
      · exact hstep.trans ((List.pairwise_cons.mp hlater).1 ledger hin)
    rw [ledgers_cons]
    refine List.pairwise_cons.mpr ⟨?_, List.pairwise_cons.mpr ⟨hall, hlater⟩⟩
    exact List.forall_mem_cons.mpr ⟨List.prefix_refl _, hall⟩

/-- All ledgers of a run record if the first one does. -/
theorem Chained.enabled (h : Chained start ms finish) (hfaithful : ∀ m ∈ ms, m.Faithful)
    (hmode : start.1.ledger.mode = .enabled) :
    finish.1.ledger.mode = .enabled ∧ ∀ ledger ∈ ledgers ms, ledger.mode = .enabled := by
  obtain ⟨hfinish, hms⟩ := h.keeps
    (fun m hm => (hfaithful m hm).keeps (Registry.stable_mode .enabled)) hmode
  refine ⟨hfinish, ?_⟩
  intro ledger hledger
  obtain ⟨m, hm, hin⟩ := List.mem_flatMap.mp hledger
  rcases List.mem_pair.mp hin with rfl | rfl
  · exact (hms m hm).1
  · exact (hms m hm).2

/-- The digests tell the texts of some moments apart. -/
def ToldByDigest (ms : List (Moment σ)) : Prop :=
  ∀ ledger ∈ ledgers ms, ∀ other ∈ ledgers ms,
    ledger.fingerprint = other.fingerprint → ledger.fingerprintText = other.fingerprintText

/-- In some moments no registration goes unnoticed. -/
structure Noticed (ms : List (Moment σ)) : Prop where
  /-- Whatever may be recorded in any of these moments, it would lengthen the text; ... -/
  record : ∀ ledger ∈ ledgers ms, ∀ destination name signature source,
    ledger.fingerprintText.length
      < (ledger.record destination name signature source).2.fingerprintText.length
  /-- ... more registrations have a longer text; ... -/
  longer : ∀ ledger ∈ ledgers ms, ∀ other ∈ ledgers ms, ledger.size < other.size →
    ledger.fingerprintText.length < other.fingerprintText.length
  /-- ... and texts are the same exactly if there are as many registrations. -/
  text : ∀ ledger ∈ ledgers ms, ∀ other ∈ ledgers ms,
    ledger.fingerprintText = other.fingerprintText ↔ ledger.size = other.size
  /-- As many registrations are added as operations are installed, ... -/
  counted : ∀ m ∈ ms, m.after.1.ledger.size = m.before.1.ledger.size + m.deed.installed
  /-- ... and the text stays exactly if none is. -/
  unchanged : ∀ m ∈ ms,
    m.after.1.ledger.fingerprintText = m.before.1.ledger.fingerprintText ↔ m.deed.installed = 0
  /-- If digests tell the texts apart, the fingerprint changes exactly if an operation is installed, ... -/
  changed : ToldByDigest ms → ∀ m ∈ ms,
    m.after.1.ledger.fingerprint ≠ m.before.1.ledger.fingerprint ↔ 0 < m.deed.installed
  /-- ... and a fingerprint that was left does not come back. -/
  gone : ToldByDigest ms → ∀ past present future : Ledger,
    [past, present, future].Sublist (ledgers ms) →
      present.fingerprint ≠ past.fingerprint → future.fingerprint ≠ past.fingerprint

/-- What is seen between two resets of a registry that keeps a ledger. -/
theorem Chained.noticed (h : Chained start ms finish) (hfaithful : ∀ m ∈ ms, m.Faithful)
    (hreset : ∀ m ∈ ms, m.deed.isReset = false) (hmode : start.1.ledger.mode = .enabled) :
    Noticed ms := by
  have hgrows := (List.pairwise_cons.mp (h.pairwise_ledgers hfaithful hreset)).2
  have henabled := (h.enabled hfaithful hmode).2
  have hnested := Ledger.nested_of_pairwise hgrows
  have htext : ∀ ledger ∈ ledgers ms, ∀ other ∈ ledgers ms,
      ledger.fingerprintText = other.fingerprintText ↔ ledger.size = other.size := by
    intro ledger hledger other hother
    rcases hnested ledger hledger other hother with hprefix | hprefix
    · exact Ledger.fingerprintText_eq_iff_size hprefix
    · rw [eq_comm, Ledger.fingerprintText_eq_iff_size hprefix, eq_comm]
  have hcounted : ∀ m ∈ ms,
      m.after.1.ledger.size = m.before.1.ledger.size + m.deed.installed := by
    intro m hm
    exact ((hfaithful m hm).takes (hreset m hm)).size_eq (henabled _ (before_mem_ledgers hm))
  have hunchanged : ∀ m ∈ ms,
      m.after.1.ledger.fingerprintText = m.before.1.ledger.fingerprintText ↔
        m.deed.installed = 0 := by
    intro m hm
    rw [htext _ (after_mem_ledgers hm) _ (before_mem_ledgers hm), hcounted m hm]
    omega
  refine ⟨?_, ?_, htext, hcounted, hunchanged, ?_, ?_⟩
  · intro ledger hledger destination name signature source
    rw [Ledger.length_fingerprintText_record (henabled ledger hledger)]
    exact Nat.lt_add_of_pos_right (Ledger.length_line_pos _)
  · intro ledger hledger other hother hsize
    rcases hnested ledger hledger other hother with hprefix | hprefix
    · exact Ledger.length_fingerprintText_lt hprefix hsize
    · exact absurd hprefix.length_le (Nat.not_le.mpr hsize)
  · intro htold m hm
    rw [Nat.pos_iff_ne_zero, not_iff_not, ← hunchanged m hm]
    constructor
    · exact htold _ (after_mem_ledgers hm) _ (before_mem_ledgers hm)
    · intro hsame
      rw [Ledger.fingerprint, Ledger.fingerprint, hsame]
  · intro htold past present future hsublist hleft hback
    obtain ⟨hpast, hrest⟩ := List.pairwise_cons.mp (hgrows.sublist hsublist)
    obtain ⟨hpresent, -⟩ := List.pairwise_cons.mp hrest
    have hpast_mem : past ∈ ledgers ms := hsublist.subset List.mem_cons_self
    have hfuture_mem : future ∈ ledgers ms := hsublist.subset (by simp)
    have hsame : present.fingerprintText = past.fingerprintText :=
      Ledger.fingerprintText_between (hpast present (by simp)) (hpresent future (by simp))
        (htold future hfuture_mem past hpast_mem hback)
    apply hleft
    rw [Ledger.fingerprint, Ledger.fingerprint, hsame]

/-- **No registration goes unnoticed.** However a registry that keeps a ledger is used: in any stretch
of moments without a reset, the text of the fingerprint gets longer with every registration and tells how
many there are, it stays as it is where nothing is installed, and, if SHA-256 tells the texts of the
stretch apart, the fingerprint changes exactly when something is installed and never returns to what it
was. -/
theorem Registry.registration_noticed {r : Registry} (hmode : r.ledger.mode = .enabled)
    (turns : List (Turn σ)) (s : σ) {past stretch later : List (Moment σ)}
    (hcourse : course turns r s = past ++ (stretch ++ later))
    (hreset : ∀ m ∈ stretch, m.deed.isReset = false) : Noticed stretch := by
  obtain ⟨finish, hchained⟩ := chained_course turns r s
  have hfaithful := faithful_course turns r s
  rw [hcourse] at hchained hfaithful
  obtain ⟨begun, hpast, hrest⟩ := chained_append.mp hchained
  obtain ⟨ended, hstretch, -⟩ := chained_append.mp hrest
  obtain ⟨hbefore, hafter⟩ := List.forall_mem_append.mp hfaithful
  have hbegun := (hpast.enabled hbefore hmode).1
  exact hstretch.noticed (List.forall_mem_append.mp hafter).1 hreset hbegun

namespace Registry

/-- An operation is registered before a reset and one after it, then a unit that offers none, and the
registry is reset again. -/
def season : List (Turn World) :=
  [Use.registerOperation "T" "lost" .idle, .reset, .registerOperation "T" "a" .idle,
    .register "T" (.live ⟨.given 0, ⟨"Nothing", []⟩⟩), .reset].map fun use => ⟨id, 0, use⟩

/-- Between the resets the fingerprint changes with the operation and not with the empty unit. -/
theorem registration_noticed_season :
    let ms := course season gallery (World.fresh [] ⟨"tmp"⟩)
    let stretch := (ms.drop 4).take 4
    gallery.ledger.mode = .enabled ∧ (∀ m ∈ stretch, m.deed.isReset = false) ∧
      stretch.map (fun m => m.deed.installed) = [0, 1, 0, 0] ∧ ToldByDigest stretch ∧
      Noticed stretch := by
  intro ms stretch
  have hreset : ∀ m ∈ stretch, m.deed.isReset = false := by
    have hall : (stretch.all fun m => !m.deed.isReset) = true := by rfl
    simpa using hall
  have hcourse : ms = ms.take 4 ++ (stretch ++ (ms.drop 4).drop 4) := by
    rw [List.take_append_drop, List.take_append_drop]
  refine ⟨rfl, hreset, rfl, ?_, registration_noticed rfl season _ hcourse hreset⟩
  -- Only two ledgers are seen, the empty one and that with the operation.
  let one := (Ledger.record (.new .enabled) "T" "a" {} .handler).2
  have hledgers : ledgers stretch = [.new .enabled, .new .enabled, .new .enabled, one, one, one, one,
    one] := rfl
  have htold : (Ledger.new .enabled).fingerprint ≠ one.fingerprint := by decide +kernel
  intro ledger hledger other hother hsame
  have htwo (seen : Ledger) (hseen : seen ∈ ledgers stretch) : seen = .new .enabled ∨ seen = one := by
    rw [hledgers] at hseen
    simpa using hseen
  rcases htwo ledger hledger with rfl | rfl <;> rcases htwo other hother with rfl | rfl
  · rfl
  · exact absurd hsame htold
  · exact absurd hsame.symm htold
  · rfl

end Registry

end

end Graft
