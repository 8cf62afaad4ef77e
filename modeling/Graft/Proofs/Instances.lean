/-
One fresh instance for each registration by name.

A blueprint numbers the instances that it makes, and every definition of a name gets a number of its
own, so an instance is identified by the use of a factory that it comes from. That no two
registrations share an instance rests on two facts about the numbers. Definitions in use are numbered
apart and below the next number (`Blueprints.Numbered`); and an identity that was given to an instance
is spent (`Blueprints.Spent`): it stays spent whatever is defined and made afterwards, and what is made
next has never been spent.

That an operation goes on to run on its instance needs nothing of this. A place in the table changes
only when something is installed in this very place or when the registry is reset (`Moment.Shadows`);
definitions, seals, flushes, other registrations and the calls in between do not reach it.

The main statement is `Registry.one_fresh_instance`.
-/
import Graft.Proofs.Composition
import Graft.Proofs.Invocation

set_option autoImplicit false

namespace Graft

/-! ## 1. Numbers of blueprints -/

namespace Blueprints

variable {blueprints blueprints' : Blueprints} {name : String} {blueprint : Blueprint}

/-- The definitions in use are numbered apart, and below the number of the next one. -/
structure Numbered (blueprints : Blueprints) : Prop where
  below : ∀ name blueprint, blueprints.byName.get? name = some blueprint →
    blueprint.number < blueprints.defined
  apart : ∀ name other blueprint blueprint',
    blueprints.byName.get? name = some blueprint →
    blueprints.byName.get? other = some blueprint' →
      blueprint.number = blueprint'.number → name = other

/-- No instance that is made from now on gets this identity. -/
def Spent (blueprints : Blueprints) : Identity → Prop
  | .given _ => True
  | .made number count => number < blueprints.defined ∧
    ∀ name blueprint, blueprints.byName.get? name = some blueprint → blueprint.number = number →
      count ≤ blueprint.made

theorem numbered_empty : Numbered empty where
  below _ _ h := absurd h (by simp [empty])
  apart _ _ _ _ h := absurd h (by simp [empty])

/-- A new definition gets the next number. -/
theorem Numbered.define (h : blueprints.Numbered) (name : String) (kind : Blueprint.Kind)
    (make : Nat → Bundle) : (blueprints.define name kind make).Numbered := by
  have hnew : ∀ other blueprint,
      (blueprints.define name kind make).byName.get? other = some blueprint →
        (other = name ∧ blueprint.number = blueprints.defined) ∨
          (blueprints.byName.get? other = some blueprint ∧
            blueprint.number < blueprints.defined) := by
    intro other blueprint hfound
    unfold Blueprints.define at hfound
    rw [OrderedMap.get?_insert] at hfound
    split at hfound
    · next hother =>
      obtain rfl := Option.some.inj hfound
      exact .inl ⟨hother, rfl⟩
    · exact .inr ⟨hfound, h.below other blueprint hfound⟩
  -- All numbers so far are smaller than the new one, so it is no other definition's.
  constructor
  · intro other blueprint hfound
    show blueprint.number < blueprints.defined + 1
    rcases hnew other blueprint hfound with ⟨-, hnumber⟩ | ⟨-, hbelow⟩ <;> omega
  · intro first second blueprint blueprint' hfirst hsecond hsame
    rcases hnew first blueprint hfirst with ⟨rfl, hnumber⟩ | ⟨hfirst, hbelow⟩
    · rcases hnew second blueprint' hsecond with ⟨rfl, -⟩ | ⟨-, hbelow'⟩
      · rfl
      · omega
    · rcases hnew second blueprint' hsecond with ⟨-, hnumber⟩ | ⟨hsecond, -⟩
      · omega
      · exact h.apart first second blueprint blueprint' hfirst hsecond hsame

/-- What stands under a name after a factory was used has the number that it had before. -/
theorem get?_used {other : String} {found : Blueprint}
    (h : (blueprints.used name blueprint).byName.get? other = some found) :
    (other = name ∧ found = { blueprint with made := blueprint.made + 1 }) ∨
      (other ≠ name ∧ blueprints.byName.get? other = some found) := by
  unfold used at h
  rw [OrderedMap.get?_insert] at h
  split at h
  · next hother => exact .inl ⟨hother, (Option.some.inj h).symm⟩
  · next hother => exact .inr ⟨hother, h⟩

theorem exists_of_get?_used {other : String} {found : Blueprint}
    (hname : blueprints.byName.get? name = some blueprint)
    (h : (blueprints.used name blueprint).byName.get? other = some found) :
    ∃ before, blueprints.byName.get? other = some before ∧ before.number = found.number ∧
      before.made ≤ found.made := by
  rcases get?_used h with ⟨rfl, rfl⟩ | ⟨-, hfound⟩
  · exact ⟨blueprint, hname, rfl, Nat.le_succ _⟩
  · exact ⟨found, hfound, rfl, Nat.le_refl _⟩

theorem Numbered.used (h : blueprints.Numbered)
    (hname : blueprints.byName.get? name = some blueprint) :
    (blueprints.used name blueprint).Numbered := by
  constructor
  · intro other found hfound
    obtain ⟨before, hbefore, hnumber, -⟩ := exists_of_get?_used hname hfound
    rw [← hnumber]
    exact h.below other before hbefore
  · intro first second found found' hfound hfound' hsame
    obtain ⟨before, hbefore, hnumber, -⟩ := exists_of_get?_used hname hfound
    obtain ⟨before', hbefore', hnumber', -⟩ := exists_of_get?_used hname hfound'
    exact h.apart first second before before' hbefore hbefore' (by omega)

/-- A definition under a new number brings no spent identity back. -/
theorem Spent.define {identity : Identity} (h : blueprints.Spent identity) (name : String)
    (kind : Blueprint.Kind) (make : Nat → Bundle) :
    (blueprints.define name kind make).Spent identity := by
  cases identity with
  | given number => trivial
  | made number count =>
    obtain ⟨hbelow, hcount⟩ := h
    refine ⟨Nat.lt_succ_of_lt hbelow, fun other found hfound hnumber => ?_⟩
    unfold Blueprints.define at hfound
    rw [OrderedMap.get?_insert] at hfound
    split at hfound
    · obtain rfl := Option.some.inj hfound
      exact absurd hnumber (Nat.ne_of_gt hbelow)
    · exact hcount other found hfound hnumber

/-- A factory only counts up. -/
theorem Spent.used {identity : Identity} (h : blueprints.Spent identity)
    (hname : blueprints.byName.get? name = some blueprint) :
    (blueprints.used name blueprint).Spent identity := by
  cases identity with
  | given number => trivial
  | made number count =>
    obtain ⟨hbelow, hcount⟩ := h
    refine ⟨hbelow, fun other found hfound hnumber => ?_⟩
    obtain ⟨before, hbefore, hsame, hle⟩ := exists_of_get?_used hname hfound
    exact Nat.le_trans (hcount other before hbefore (hsame.trans hnumber)) hle

/-- What is made next has never been made before. -/
theorem not_spent_next (hname : blueprints.byName.get? name = some blueprint) :
    ¬ blueprints.Spent blueprint.next.identity := by
  rintro ⟨-, hcount⟩
  exact absurd (hcount name blueprint hname rfl) (Nat.not_succ_le_self _)

theorem spent_next (h : blueprints.Numbered)
    (hname : blueprints.byName.get? name = some blueprint) :
    (blueprints.used name blueprint).Spent blueprint.next.identity := by
  refine ⟨h.below name blueprint hname, fun other found hfound hnumber => ?_⟩
  rcases get?_used hfound with ⟨-, rfl⟩ | ⟨hother, hbefore⟩
  · exact Nat.le_refl _
  · exact absurd (h.apart other name found blueprint hbefore hname hnumber) hother

end Blueprints

/-- The blueprints of a manifest are numbered in the order of their definition. -/
theorem Manifest.numbered_definitions (manifest : Manifest) : manifest.definitions.Numbered := by
  unfold definitions
  generalize hstart : Blueprints.empty = start
  have hnumbered : start.Numbered := hstart ▸ Blueprints.numbered_empty
  clear hstart
  induction manifest.blueprints generalizing start with
  | nil => exact hnumbered
  | cons defined rest ih =>
    obtain ⟨name, kind, make⟩ := defined
    exact ih _ (hnumbered.define name kind make)

/-! ## 2. What a registration does -/

section

variable {σ : Type} [Host (StateM σ)]
variable {r r' : Registry} {s s' : σ} {destination name : String} {unit : BundleRef}

namespace Registry

/-- The instance that a reference stands for, if one can be had: a new one for a name. -/
def instance? (r : Registry) (s : σ) (unit : BundleRef) : Option Instance :=
  ((r.wrappers.materialize r.blueprints unit : StateM σ _).run s).1.1.toOption

/-- A registration that fails leaves blueprints and table alone. One that succeeds installs the
interface of an instance, which is the one that was handed in or the next one of a blueprint. -/
theorem register_spec {result : Except RegisterError Nat}
    (h : (r.register destination unit : StateM σ _).run s = ((result, r'), s')) :
    (∃ error, result = .error error ∧ r'.blueprints = r.blueprints ∧ r'.dispatch = r.dispatch) ∨
      ∃ i, result = .ok i.interface.entries.length ∧ r.instance? s unit = some i ∧
        (∀ other operation, r'.dispatch.get? other operation
          = if other = destination then
              ((i.interface.get? operation).map
                  (⟨destination, operation, ·, provenance unit i⟩)).or
                (r.dispatch.get? destination operation)
            else r.dispatch.get? other operation) ∧
        ((unit = .live i ∧ r'.blueprints = r.blueprints) ∨
          ∃ name composes blueprint, unit = .named name ∧
            r.blueprints.byName.get? composes = some blueprint ∧ i = blueprint.next ∧
            r'.blueprints = r.blueprints.used composes blueprint) := by
  rcases register_cases h with ⟨error, -, rfl, rfl, -⟩ |
    ⟨-, made, wrappers, blueprints, s₁, hmade, ⟨error, rfl, rfl, -, rfl⟩ | ⟨i, rfl, rfl, rfl⟩⟩
  · exact .inl ⟨_, rfl, rfl, rfl⟩
  · obtain ⟨rfl, -⟩ := WrapperStore.unchanged_of_materialize_error hmade
    exact .inl ⟨_, rfl, rfl, rfl⟩
  · refine .inr ⟨i, rfl, ?_, fun other operation => ?_, ?_⟩
    · rw [instance?, hmade]
      rfl
    · exact get?_installed { r with wrappers := wrappers, blueprints := blueprints } destination
        i.interface (provenance unit i) other operation
    · rcases WrapperStore.materialize_cases hmade with ⟨_, rfl, hi, -, rfl, -⟩ |
        ⟨name, _, rfl, -, ⟨_, -, herror, -⟩ | ⟨_, -, -, herror, -⟩ | ⟨composes, _, -, hinstance, hi⟩⟩
      · obtain rfl := Except.ok.inj hi
        exact .inl ⟨rfl, rfl⟩
      · exact absurd herror (by simp)
      · exact absurd herror (by simp)
      · obtain rfl := Except.ok.inj hi
        obtain ⟨blueprint, hfound, hnext, hused⟩ := Blueprints.instantiate?_eq_some hinstance
        exact .inr ⟨name, composes, blueprint, rfl, hfound, hnext, hused⟩

end Registry

/-! ## 3. Identities along a record -/

/-- A name, or an instance that is not one that a blueprint has made. -/
def BundleRef.Foreign : BundleRef → Prop
  | .live i => ∃ number, i.identity = .given number
  | .named _ => True

namespace Moment

variable {m : Moment σ}

/-- The unit that is registered in a moment, and its instance. -/
def registration? (m : Moment σ) : Option (BundleRef × Instance) :=
  match m.deed with
  | .served (.register _ unit) (.registered (.ok _)) =>
    (m.before.1.instance? m.before.2 unit).map (unit, ·)
  | _ => none

theorem registration?_of_registered {count : Nat}
    (h : m.deed = .served (.register destination unit) (.registered (.ok count))) :
    m.registration? = (m.before.1.instance? m.before.2 unit).map (unit, ·) := by
  rw [registration?, h]

theorem exists_of_registration? {unit : BundleRef} {i : Instance}
    (h : m.registration? = some (unit, i)) :
    ∃ destination count, m.deed = .served (.register destination unit) (.registered (.ok count)) ∧
      m.before.1.instance? m.before.2 unit = some i := by
  unfold registration? at h
  split at h
  · next destination other count hdeed =>
    obtain ⟨found, hfound, hpair⟩ := Option.map_eq_some_iff.mp h
    obtain ⟨rfl, rfl⟩ := Prod.mk.inj hpair
    exact ⟨destination, count, hdeed, hfound⟩
  · exact absurd h (by simp)

/-- A registration in a record is one of the registry. -/
theorem Faithful.register {reply : Reply} (h : m.Faithful)
    (hdeed : m.deed = .served (.register destination unit) reply) :
    ∃ result, reply = .registered result ∧
      (m.before.1.register destination unit : StateM σ _).run m.before.2
        = ((result, m.after.1), m.after.2) := by
  rcases h.cases with ⟨hother, -⟩ | ⟨use, served, hserved, hcall, hserve⟩
  · exact absurd hdeed (hother _ _)
  · obtain ⟨rfl, rfl⟩ := Deed.served.inj (hserved.symm.trans hdeed)
    rcases Use.serve_cases hcall hserve with ⟨_, _, huse, -⟩ | ⟨_, _, _, huse, -⟩ |
      ⟨_, _, result, huse, hreply, hreg⟩ | ⟨_, _, _, _, huse, -⟩ | ⟨_, _, huse, -⟩ | ⟨huse, -⟩
    · cases huse
    · cases huse
    · obtain ⟨rfl, rfl⟩ := Use.register.inj huse
      exact ⟨result, hreply, hreg⟩
    · cases huse
    · cases huse
    · cases huse

/-- A moment uses a factory once, for a registration by name, or it uses none; and then it leaves the
blueprints alone or defines one. -/
theorem Faithful.blueprints_cases (h : m.Faithful) :
    (∃ name composes blueprint, m.registration? = some (.named name, blueprint.next) ∧
        m.before.1.blueprints.byName.get? composes = some blueprint ∧
        m.after.1.blueprints = m.before.1.blueprints.used composes blueprint) ∨
      ((∀ name i, m.registration? ≠ some (.named name, i)) ∧
        (m.after.1.blueprints = m.before.1.blueprints ∨ ∃ name kind make,
          m.after.1.blueprints = m.before.1.blueprints.define name kind make)) := by
  rcases h.cases with ⟨hother, hsame⟩ | ⟨use, reply, hserved, hcall, hserve⟩
  · refine .inr ⟨fun name i hreg => ?_, .inl (by rw [hsame])⟩
    obtain ⟨_, _, hdeed, -⟩ := exists_of_registration? hreg
    exact hother _ _ hdeed
  · -- Of the requests that can be served, only a registration may show up among the registrations.
    have hnone (huse : ∀ destination unit, use ≠ .register destination unit) (name : String)
        (i : Instance) : m.registration? ≠ some (.named name, i) := by
      intro hreg
      obtain ⟨_, _, hdeed, -⟩ := exists_of_registration? hreg
      exact huse _ _ (Deed.served.inj (hserved.symm.trans hdeed)).1
    rcases Use.serve_cases hcall hserve with ⟨_, _, rfl, -, hafter⟩ |
      ⟨name, kind, make, rfl, -, hafter⟩ | ⟨destination, unit, result, rfl, rfl, hreg⟩ |
      ⟨_, _, _, _, rfl, -, hreg⟩ | ⟨_, _, rfl, -, hafter⟩ | ⟨rfl, -, hafter⟩
    · exact .inr ⟨hnone (by simp), .inl (by rw [hafter]; rfl)⟩
    · exact .inr ⟨hnone (by simp), .inr ⟨name, kind, make, by rw [hafter]; rfl⟩⟩
    · rcases Registry.register_spec hreg with ⟨error, rfl, hsame, -⟩ |
        ⟨i, rfl, hinstance, -, ⟨rfl, hsame⟩ | ⟨name, composes, blueprint, rfl, hfound, rfl, hused⟩⟩
      · refine .inr ⟨fun name i hregistered => ?_, .inl hsame⟩
        obtain ⟨_, _, hdeed, -⟩ := exists_of_registration? hregistered
        exact absurd (Deed.served.inj (hserved.symm.trans hdeed)).2 (by simp)
      · refine .inr ⟨fun name j hregistered => ?_, .inl hsame⟩
        obtain ⟨_, _, hdeed, -⟩ := exists_of_registration? hregistered
        exact absurd (Deed.served.inj (hserved.symm.trans hdeed)).1 (by simp)
      · refine .inl ⟨name, composes, blueprint, ?_, hfound, hused⟩
        rw [registration?_of_registered hserved, hinstance]
        rfl
    · refine .inr ⟨hnone (by simp), .inl ?_⟩
      rcases Registry.registerOperation_cases hreg with ⟨_, -, -, hafter, -⟩ | ⟨-, -, hafter⟩
      · rw [hafter]
      · rw [hafter]
        rfl
    · exact .inr ⟨hnone (by simp), .inl (by rw [hafter])⟩
    · exact .inr ⟨hnone (by simp), .inl (by rw [hafter]; rfl)⟩

/-- The step lemma for numbers. -/
theorem Faithful.numbered (h : m.Faithful) (hbefore : m.before.1.blueprints.Numbered) :
    m.after.1.blueprints.Numbered := by
  rcases h.blueprints_cases with ⟨_, _, _, -, hfound, hafter⟩ |
    ⟨-, hafter | ⟨name, kind, make, hafter⟩⟩
  · exact hafter ▸ hbefore.used hfound
  · exact hafter ▸ hbefore
  · exact hafter ▸ hbefore.define name kind make

/-- The step lemma for identities: what is spent stays spent. -/
theorem Faithful.spent {identity : Identity} (h : m.Faithful)
    (hbefore : m.before.1.blueprints.Spent identity) : m.after.1.blueprints.Spent identity := by
  rcases h.blueprints_cases with ⟨_, _, _, -, hfound, hafter⟩ |
    ⟨-, hafter | ⟨name, kind, make, hafter⟩⟩
  · exact hafter ▸ hbefore.used hfound
  · exact hafter ▸ hbefore
  · exact hafter ▸ hbefore.define name kind make

/-- The instance of a registration by name spends an identity that was not spent before. -/
theorem Faithful.spends {name : String} {i : Instance} (h : m.Faithful)
    (hbefore : m.before.1.blueprints.Numbered)
    (hreg : m.registration? = some (.named name, i)) :
    ¬ m.before.1.blueprints.Spent i.identity ∧ m.after.1.blueprints.Spent i.identity := by
  rcases h.blueprints_cases with ⟨_, composes, blueprint, hmade, hfound, hafter⟩ | ⟨hnone, -⟩
  · obtain ⟨-, rfl⟩ := Prod.mk.inj (Option.some.inj (hmade.symm.trans hreg))
    rw [hafter]
    exact ⟨Blueprints.not_spent_next hfound, Blueprints.spent_next hbefore hfound⟩
  · exact absurd hreg (hnone name i)

/-- A unit that was handed in is its own instance. -/
theorem eq_of_live {i j : Instance} (h : m.registration? = some (.live i, j)) : j = i := by
  obtain ⟨_, _, -, hinstance⟩ := exists_of_registration? h
  exact (Option.some.inj hinstance).symm

/-- An instance that was made has no identity that somebody could have given to it. -/
theorem Faithful.ne_given {name : String} {i : Instance} (h : m.Faithful)
    (hbefore : m.before.1.blueprints.Numbered)
    (hreg : m.registration? = some (.named name, i)) (number : Nat) :
    i.identity ≠ .given number := by
  intro hgiven
  refine (h.spends hbefore hreg).1 ?_
  rw [hgiven]
  trivial

/-- After a registration the identity of its instance is spent. -/
theorem Faithful.spent_of_registration {unit : BundleRef} {i : Instance} (h : m.Faithful)
    (hbefore : m.before.1.blueprints.Numbered) (hreg : m.registration? = some (unit, i))
    (hforeign : unit.Foreign) : m.after.1.blueprints.Spent i.identity := by
  cases unit with
  | named name => exact (h.spends hbefore hreg).2
  | live k =>
    obtain ⟨number, hnumber⟩ := hforeign
    rw [eq_of_live hreg, hnumber]
    trivial

end Moment

/-- The units that were registered, one after the other, each with its instance. -/
def registrations (ms : List (Moment σ)) : List (BundleRef × Instance) :=
  ms.filterMap Moment.registration?

/-- Two registrations, at least one of them by name, have different instances. -/
def Apart (first second : BundleRef × Instance) : Prop :=
  ((∃ name, first.1 = .named name) ∨ ∃ name, second.1 = .named name) →
    first.1.Foreign → second.1.Foreign → first.2.identity ≠ second.2.identity

variable {start finish : Registry × σ} {ms : List (Moment σ)}

/-- No later registration by name is given a spent identity. -/
theorem Chained.ne_of_spent (h : Chained start ms finish) (hfaithful : ∀ m ∈ ms, m.Faithful)
    (hnumbered : start.1.blueprints.Numbered) {identity : Identity}
    (hspent : start.1.blueprints.Spent identity) {name : String} {i : Instance}
    (hi : (.named name, i) ∈ registrations ms) : i.identity ≠ identity := by
  obtain ⟨m, hm, hreg⟩ := List.mem_filterMap.mp hi
  have hbefore := ((h.keeps (P := fun r => r.blueprints.Numbered ∧ r.blueprints.Spent identity)
    (fun m' hm' hb => ⟨(hfaithful m' hm').numbered hb.1, (hfaithful m' hm').spent hb.2⟩)
    ⟨hnumbered, hspent⟩).2 m hm).1
  rintro rfl
  exact ((hfaithful m hm).spends hbefore.1 hreg).1 hbefore.2

/-- The run lemma: registrations have instances of their own. -/
theorem Chained.apart (h : Chained start ms finish) (hfaithful : ∀ m ∈ ms, m.Faithful)
    (hnumbered : start.1.blueprints.Numbered) : (registrations ms).Pairwise Apart := by
  induction ms generalizing start with
  | nil => exact .nil
  | cons m rest ih =>
    obtain ⟨rfl, hrest⟩ := h
    obtain ⟨hm, hfaithful⟩ := List.forall_mem_cons.mp hfaithful
    have hafter := hm.numbered hnumbered
    have hlater := ih hrest hfaithful hafter
    unfold registrations
    rw [List.filterMap_cons]
    split
    · exact hlater
    · next first hfirst =>
      refine List.pairwise_cons.mpr ⟨fun second hsecond hnamed hforeign hforeign' => ?_, hlater⟩
      obtain ⟨unit, i⟩ := first
      obtain ⟨unit', j⟩ := second
      cases unit' with
      | named name' =>
        -- Whatever the first one was, its identity is spent by the time of the second.
        exact (hrest.ne_of_spent hfaithful hafter
          (hm.spent_of_registration hnumbered hfirst hforeign) hsecond).symm
      | live k =>
        -- The second one was handed in, so the first one was made.
        obtain ⟨name, rfl⟩ : ∃ name, unit = .named name := by
          rcases hnamed with hnamed | ⟨_, hother⟩
          · exact hnamed
          · cases hother
        obtain ⟨m', -, hreg⟩ := List.mem_filterMap.mp hsecond
        obtain ⟨number, hnumber⟩ := hforeign'
        rw [Moment.eq_of_live hreg, hnumber]
        exact hm.ne_given hnumbered hfirst number

/-! ## 4. Operations that stay -/

/-- A moment after which another operation, or none, may stand under a name. -/
def Moment.Shadows (m : Moment σ) (destination operation : String) : Prop :=
  match m.deed with
  | .served (.register other unit) (.registered (.ok _)) =>
    other = destination ∧ ∃ i, m.before.1.instance? m.before.2 unit = some i ∧
      i.interface.contains operation = true
  | .served (.registerOperation other name _) (.registeredOperation (.ok _)) =>
    other = destination ∧ name = operation
  | .served .reset _ => True
  | _ => False

/-- A single handler changes the place under its name and no other. -/
theorem Registry.get?_installed_single (r : Registry) (destination name : String)
    (handler : Handler) (source : Provenance) (other operation : String) :
    (r.installed destination [(name, handler)] source).2.dispatch.get? other operation
      = if other = destination ∧ operation = name then
          some ⟨destination, name, handler, source⟩
        else r.dispatch.get? other operation := by
  have htable := get?_installed r destination (OrderedMap.empty.insert name handler) source other
    operation
  rw [OrderedMap.get?_insert] at htable
  refine htable.trans ?_
  by_cases hother : other = destination
  · subst hother
    by_cases hoperation : operation = name
    · subst hoperation
      rw [if_pos rfl, if_pos rfl, if_pos ⟨rfl, rfl⟩]
      rfl
    · rw [if_pos rfl, if_neg hoperation, if_neg (fun h => hoperation h.2)]
      rfl
  · rw [if_neg hother, if_neg (fun h => hother h.1)]

/-- The step lemma: every other moment leaves the place alone. -/
theorem Moment.Faithful.get?_eq {m : Moment σ} {operation : String} (h : m.Faithful)
    (hplace : ¬ m.Shadows destination operation) :
    m.after.1.dispatch.get? destination operation
      = m.before.1.dispatch.get? destination operation := by
  rcases h.cases with ⟨-, hsame⟩ | ⟨use, reply, hserved, hcall, hserve⟩
  · rw [hsame]
  · unfold Moment.Shadows at hplace
    rw [hserved] at hplace
    rcases Use.serve_cases hcall hserve with ⟨_, _, -, -, hafter⟩ | ⟨_, _, _, -, -, hafter⟩ |
      ⟨other, unit, result, rfl, rfl, hreg⟩ | ⟨other, name, handler, result, rfl, rfl, hreg⟩ |
      ⟨_, _, -, -, hafter⟩ | ⟨rfl, rfl, -⟩
    · rw [hafter]
      rfl
    · rw [hafter]
      rfl
    · rcases Registry.register_spec hreg with ⟨_, -, -, hsame⟩ | ⟨i, rfl, hinstance, htable, -⟩
      · rw [hsame]
      · rw [htable]
        split
        · next hother =>
          -- It is the destination, so the operation is none of the instance's.
          have hfree : i.interface.get? operation = none := by
            by_contra hsome
            exact hplace ⟨hother.symm, i, hinstance, Option.isSome_iff_ne_none.mpr hsome⟩
          rw [hfree, hother]
          rfl
        · rfl
    · rcases Registry.registerOperation_cases hreg with ⟨_, -, -, hafter, -⟩ | ⟨-, rfl, hafter⟩
      · rw [hafter]
      · rw [hafter, Registry.get?_installed_single, if_neg]
        exact fun hsame => hplace ⟨hsame.1.symm, hsame.2.symm⟩
    · rw [hafter]
    · exact absurd trivial hplace

/-- The run lemma: until something takes its place, an operation stays. -/
theorem Chained.get?_eq {operation : String} (h : Chained start ms finish)
    (hfaithful : ∀ m ∈ ms, m.Faithful) (hplace : ∀ m ∈ ms, ¬ m.Shadows destination operation) :
    finish.1.dispatch.get? destination operation = start.1.dispatch.get? destination operation :=
  (h.keeps (P := fun r => r.dispatch.get? destination operation
      = start.1.dispatch.get? destination operation)
    (fun m hm hbefore => ((hfaithful m hm).get?_eq (hplace m hm)).trans hbefore) rfl).1

/-! ## 5. Every registration -/

/-- A call under a name runs the body that an instance declares for it, on this very instance. -/
def Registry.RunsOn (r : Registry) (s : σ) (destination operation : String) (i : Instance) : Prop :=
  ∃ member ∈ i.bundle.members, member.name = operation ∧ ∃ signature body,
    member.kind = .operation signature body ∧ ∀ receiver arguments,
      signature.check arguments = .ok () → ∀ result finish,
        Registry.Answers destination operation receiver arguments (r, s) result finish ↔
          ∃ ending, (body i.owner ⟨receiver, destination, operation⟩ arguments).Ends (r, s) ending
              finish ∧ result = ending.answer destination operation

theorem Registry.runsOn_of_boundTo {r : Registry} {operation : String} {handler : Handler}
    {source : Provenance} {i : Instance}
    (hop : r.dispatch.get? destination operation
      = some ⟨destination, operation, handler, source⟩)
    (hbound : handler.BoundTo i operation) (s : σ) : r.RunsOn s destination operation i := by
  obtain ⟨member, hmember, hname, -, -, signature, body, hkind, rfl⟩ := hbound
  exact ⟨member, hmember, hname, signature, body, hkind,
    fun receiver arguments hcheck result finish => answers_iff hop hcheck⟩

/-- What a registration by name does in a moment. -/
structure Moment.Registers (m : Moment σ) (destination name : String)
    (result : Except RegisterError Nat) : Prop where
  /-- If it fails, no factory is used, and what is installed stays. -/
  failed : ∀ error, result = .error error →
    m.after.1.blueprints = m.before.1.blueprints ∧ m.after.1.dispatch = m.before.1.dispatch
  /-- If it succeeds, the factory of one blueprint is used once and no other; the instance that it
  makes is the one of this registration; and all that is installed is bound to it. -/
  succeeded : ∀ count, result = .ok count → ∃ composes blueprint,
    m.before.1.blueprints.byName.get? composes = some blueprint ∧
    m.after.1.blueprints = m.before.1.blueprints.used composes blueprint ∧
    m.registration? = some (.named name, blueprint.next) ∧
    count = blueprint.next.interface.size ∧
    ∀ operation handler, blueprint.next.interface.get? operation = some handler →
      m.after.1.dispatch.get? destination operation
          = some ⟨destination, operation, handler, .named name⟩ ∧
        handler.BoundTo blueprint.next operation

theorem Moment.Faithful.registers {m : Moment σ} {name : String}
    {result : Except RegisterError Nat} (h : m.Faithful)
    (hdeed : m.deed = .served (.register destination (.named name)) (.registered result)) :
    m.Registers destination name result := by
  obtain ⟨_, hreply, hrun⟩ := h.register hdeed
  obtain rfl := Reply.registered.inj hreply
  rcases Registry.register_spec hrun with ⟨error, rfl, hblueprints, hdispatch⟩ |
    ⟨i, rfl, hinstance, htable, ⟨hlive, -⟩ | ⟨_, composes, blueprint, hname, hfound, rfl, hused⟩⟩
  · exact ⟨fun _ _ => ⟨hblueprints, hdispatch⟩, fun _ hok => absurd hok (by simp)⟩
  · exact absurd hlive (by simp)
  · refine ⟨fun _ herror => absurd herror (by simp), fun count hcount => ?_⟩
    refine ⟨composes, blueprint, hfound, hused, ?_, (Except.ok.inj hcount).symm,
      fun operation handler hhandler => ⟨?_, Instance.boundTo_of_interface hhandler⟩⟩
    · rw [Moment.registration?_of_registered hdeed, hinstance]
      rfl
    · rw [htable, if_pos rfl, hhandler]
      rfl

namespace Registry

/-- **One fresh instance for each registration by name.** In the course of any turns of an application,
nested calls and the uses of others included:

Each registration by name that succeeds uses one factory once, and each one that fails uses none.
Its instance is none of any other registration. And each operation that it installs runs on its
instance for as long as nothing else is installed in its place and the registry is not reset, whatever
else happens. -/
theorem one_fresh_instance (manifest : Manifest) (options : Options) (turns : List (Turn σ))
    (s : σ) :
    (∀ m ∈ course turns (ofManifest manifest options) s, ∀ destination name result,
        m.deed = .served (.register destination (.named name)) (.registered result) →
          m.Registers destination name result) ∧
      (registrations (course turns (ofManifest manifest options) s)).Pairwise Apart ∧
      ∀ past m between later,
        course turns (ofManifest manifest options) s = past ++ m :: (between ++ later) →
        ∀ destination name count i operation handler,
          m.deed = .served (.register destination (.named name)) (.registered (.ok count)) →
          m.registration? = some (.named name, i) →
          i.interface.get? operation = some handler →
          (∀ m' ∈ between, ¬ m'.Shadows destination operation) →
            ∃ now : Registry × σ, Chained m.after between now ∧
              now.1.dispatch.get? destination operation
                = some ⟨destination, operation, handler, .named name⟩ ∧
              ∀ t : σ, now.1.RunsOn t destination operation i := by
  obtain ⟨finish, hchained⟩ := chained_course turns (ofManifest manifest options) s
  have hfaithful := faithful_course turns (ofManifest manifest options) s
  refine ⟨fun m hm destination name result hdeed => (hfaithful m hm).registers hdeed,
    hchained.apart hfaithful manifest.numbered_definitions, ?_⟩
  intro past m between later hcourse destination name count i operation handler hdeed hreg hhandler
    hplace
  rw [hcourse] at hchained hfaithful
  obtain ⟨hpast, -, -, hrest⟩ := chained_append.mp hchained
  obtain ⟨now, hbetween, -⟩ := chained_append.mp hrest
  have hm : m ∈ past ++ m :: (between ++ later) :=
    List.mem_append_right _ List.mem_cons_self
  -- The instance of the record is the one whose operations were installed.
  obtain ⟨composes, blueprint, -, -, hmade, -, hinstalled⟩ :=
    ((hfaithful m hm).registers hdeed).succeeded count rfl
  obtain ⟨-, rfl⟩ := Prod.mk.inj (Option.some.inj (hmade.symm.trans hreg))
  obtain ⟨hop, hbound⟩ := hinstalled operation handler hhandler
  have hstays : now.1.dispatch.get? destination operation
      = some ⟨destination, operation, handler, .named name⟩ :=
    (hbetween.get?_eq (fun m' hm' => hfaithful m' (List.mem_append_right _
      (List.mem_cons_of_mem _ (List.mem_append_left _ hm')))) hplace).trans hop
  exact ⟨now, hbetween, hstays, runsOn_of_boundTo hstays hbound⟩

/-- A greeter that is defined anew starts to count again, and its instances are told from the others
by the number of the definition. -/
example : (registrations (course [⟨id, 0, .register "T" (.named "Greeter")⟩,
      ⟨id, 0, .register "T" (.named "Greeter")⟩,
      ⟨id, 0, .define "Greeter" .composable fun _ => oneOperation "Greeter" "hello"⟩,
      ⟨id, 0, .register "T" (.named "Greeter")⟩]
    { gallery with wrappers := .new none } (World.fresh [] ⟨"tmp"⟩))).map (·.2.identity)
      = [.made 0 1, .made 0 2, .made 2 1] := rfl

end Registry

end

end Graft
