/-
How programs run that use a state and may fail.

A run is an equation between a program with its first state and an outcome with its last state. The
equations below take such a run apart at its first step. A relation that every step of a program
respects, and that can be put together from step to step, is respected by the whole program; this is
how frame conditions are proved, without following what the program does. Programs that carry a value
of their own through a machine keep an invariant of both, and what they return may be known from it; of
those that end well more may be known.
-/
set_option autoImplicit false

namespace Graft

variable {σ ε α β : Type}

/-! ## 1. Taking a run apart -/

theorem run_bind (x : StateM σ α) (f : α → StateM σ β) (s : σ) :
    (x >>= f).run s = (f (x.run s).1).run (x.run s).2 := rfl

theorem run_pure (a : α) (s : σ) : (pure a : StateM σ α).run s = (a, s) := rfl

theorem run_lift (x : StateM σ α) (s : σ) :
    (ExceptT.lift x : ExceptT ε (StateM σ) α).run.run s = (.ok (x.run s).1, (x.run s).2) := rfl

theorem run_bind_except (x : ExceptT ε (StateM σ) α) (f : α → ExceptT ε (StateM σ) β) (s : σ) :
    (x >>= f).run.run s = match x.run.run s with
      | (.ok a, t) => (f a).run.run t
      | (.error error, t) => (.error error, t) := by
  rw [ExceptT.run_bind, run_bind]
  rcases x.run.run s with ⟨_ | _, t⟩ <;> rfl

/-- After a program that ends well the next one runs. -/
theorem run_bind_of_ok {x : ExceptT ε (StateM σ) α} {f : α → ExceptT ε (StateM σ) β} {s t : σ} {a : α}
    (h : x.run.run s = (.ok a, t)) : (x >>= f).run.run s = (f a).run.run t := by
  rw [run_bind_except, h]

/-- A failure is the end. -/
theorem run_bind_of_error {x : ExceptT ε (StateM σ) α} {f : α → ExceptT ε (StateM σ) β} {s t : σ}
    {error : ε} (h : x.run.run s = (.error error, t)) : (x >>= f).run.run s = (.error error, t) := by
  rw [run_bind_except, h]

/-- What a program returns if it ends well tells its outcome. -/
theorem eq_ok_of_toOption {result : Except ε α} {a : α} (h : result.toOption = some a) :
    result = .ok a := by
  cases result with
  | ok found => rw [Option.some.inj h]
  | error _ => exact absurd h (by simp [Except.toOption])

/-- The first of two programs fails, and that is all, or it ends well and the second one runs. -/
theorem run_bind_cases {x : ExceptT ε (StateM σ) α} {f : α → ExceptT ε (StateM σ) β} {s s' : σ}
    {result : Except ε β} (h : (x >>= f).run.run s = (result, s')) :
    (∃ error, x.run.run s = (.error error, s') ∧ result = .error error) ∨
      ∃ a t, x.run.run s = (.ok a, t) ∧ (f a).run.run t = (result, s') := by
  rcases hx : x.run.run s with ⟨error | a, t⟩
  · rw [run_bind_of_error hx] at h
    obtain ⟨rfl, rfl⟩ := Prod.mk.inj h
    exact .inl ⟨error, rfl, rfl⟩
  · rw [run_bind_of_ok hx] at h
    exact .inr ⟨a, t, rfl, h⟩

/-- If two programs end well one after the other, each of them does. -/
theorem run_bind_eq_ok {x : ExceptT ε (StateM σ) α} {f : α → ExceptT ε (StateM σ) β} {s s' : σ}
    {b : β} (h : (x >>= f).run.run s = (.ok b, s')) :
    ∃ a t, x.run.run s = (.ok a, t) ∧ (f a).run.run t = (.ok b, s') := by
  rcases run_bind_cases h with ⟨error, -, herror⟩ | hok
  · exact absurd herror (by simp)
  · exact hok

/-- A program whose failure is told in other words fails or ends well as it did before. -/
theorem run_mapError_cases {δ : Type} {f : ε → δ} {x : StateM σ (Except ε α)} {s s' : σ}
    {result : Except δ α}
    (h : (ExceptT.mk (do return (← x).mapError f) : ExceptT δ (StateM σ) α).run.run s
      = (result, s')) :
    (∃ error, x.run s = (.error error, s') ∧ result = .error (f error)) ∨
      ∃ a, x.run s = (.ok a, s') ∧ result = .ok a := by
  have hrun : (ExceptT.mk (do return (← x).mapError f) : ExceptT δ (StateM σ) α).run.run s
      = ((x.run s).1.mapError f, (x.run s).2) := rfl
  rw [hrun] at h
  rcases hx : x.run s with ⟨error | a, t⟩
  · rw [hx] at h
    obtain ⟨rfl, rfl⟩ := Prod.mk.inj h
    exact .inl ⟨error, rfl, rfl⟩
  · rw [hx] at h
    obtain ⟨rfl, rfl⟩ := Prod.mk.inj h
    exact .inr ⟨a, rfl, rfl⟩

theorem run_mapError_eq_ok {δ : Type} {f : ε → δ} {x : StateM σ (Except ε α)} {s s' : σ} {a : α}
    (h : (ExceptT.mk (do return (← x).mapError f) : ExceptT δ (StateM σ) α).run.run s
      = (.ok a, s')) : x.run s = (.ok a, s') := by
  rcases run_mapError_cases h with ⟨error, -, herror⟩ | ⟨value, hrun, hvalue⟩
  · exact absurd herror (by simp)
  · rwa [Except.ok.inj hvalue]

theorem run_mapError_of_ok {δ : Type} {f : ε → δ} {x : StateM σ (Except ε α)} {s s' : σ} {a : α}
    (h : x.run s = (.ok a, s')) :
    (ExceptT.mk (do return (← x).mapError f) : ExceptT δ (StateM σ) α).run.run s = (.ok a, s') := by
  have hrun : (ExceptT.mk (do return (← x).mapError f) : ExceptT δ (StateM σ) α).run.run s
      = ((x.run s).1.mapError f, (x.run s).2) := rfl
  rw [hrun, h]
  rfl

/-! ## 2. Relations that a program respects -/

/-- Whatever a program does, it leads from a state to a related one. -/
def Keeps (R : σ → σ → Prop) (p : StateM σ α) : Prop := ∀ s, R s (p.run s).2

/-- A relation that can be put together from step to step. -/
structure Composable (R : σ → σ → Prop) : Prop where
  refl : ∀ s, R s s
  trans : ∀ {s t u}, R s t → R t u → R s u

variable {R : σ → σ → Prop}

theorem Keeps.of_run {p : StateM σ α} (hp : Keeps R p) {s s' : σ} {a : α}
    (h : p.run s = (a, s')) : R s s' := by
  have hs := hp s
  rwa [h] at hs

theorem Keeps.pure (hR : Composable R) (a : α) : Keeps R (pure a) := hR.refl

theorem Keeps.bind (hR : Composable R) {x : StateM σ α} {f : α → StateM σ β} (hx : Keeps R x)
    (hf : ∀ a, Keeps R (f a)) : Keeps R (x >>= f) := by
  intro s
  rw [run_bind]
  exact hR.trans (hx s) (hf _ _)

theorem Keeps.bindExcept (hR : Composable R) {x : ExceptT ε (StateM σ) α}
    {f : α → ExceptT ε (StateM σ) β} (hx : Keeps R x.run) (hf : ∀ a, Keeps R (f a).run) :
    Keeps R (x >>= f).run := by
  intro s
  rcases hrun : (x >>= f).run.run s with ⟨result, s'⟩
  rcases run_bind_cases hrun with ⟨error, hfirst, -⟩ | ⟨a, t, hfirst, hnext⟩
  · exact hx.of_run hfirst
  · exact hR.trans (hx.of_run hfirst) ((hf a).of_run hnext)

/-- A program that cannot fail may be used by one that can. -/
theorem Keeps.lift (hR : Composable R) {x : StateM σ α} (hx : Keeps R x) :
    Keeps R (ExceptT.lift x : ExceptT ε (StateM σ) α).run :=
  Keeps.bind hR hx fun _ => Keeps.pure hR _

/-- Telling a failure in other words does nothing to the state. -/
theorem Keeps.mapError {δ : Type} (hR : Composable R) (f : ε → δ) {x : StateM σ (Except ε α)}
    (hx : Keeps R x) :
    Keeps R (ExceptT.mk (do return (← x).mapError f) : ExceptT δ (StateM σ) α).run :=
  Keeps.bind hR hx fun _ => Keeps.pure hR _

/-! ## 3. Invariants of programs with a value of their own -/

variable {μ : Type} {I : μ → σ → Prop} {Q : α → Prop} {S : β → Prop}

/-- A program keeps an invariant of its own value and of the machine, however it ends, and what it
returns has a property. -/
def Assures (I : μ → σ → Prop) (x : ExceptT ε (StateT μ (StateM σ)) α) (Q : α → Prop) : Prop :=
  ∀ ⦃m s result m' s'⦄, I m s → (x.run.run m).run s = ((result, m'), s') →
    I m' s' ∧ ∀ a, result = .ok a → Q a

theorem Assures.pure {a : α} (h : Q a) :
    Assures I (pure a : ExceptT ε (StateT μ (StateM σ)) α) Q := by
  intro m s result m' s' hI hrun
  obtain ⟨⟨rfl, rfl⟩, rfl⟩ := (Prod.mk.inj hrun).imp_left Prod.mk.inj
  exact ⟨hI, fun b hb => Except.ok.inj hb ▸ h⟩

theorem Assures.throw (error : ε) :
    Assures I (throw error : ExceptT ε (StateT μ (StateM σ)) α) Q := by
  intro m s result m' s' hI hrun
  obtain ⟨⟨rfl, rfl⟩, rfl⟩ := (Prod.mk.inj hrun).imp_left Prod.mk.inj
  exact ⟨hI, fun b hb => absurd hb (by simp)⟩

theorem Assures.get {Q : μ → Prop} (h : ∀ m s, I m s → Q m) :
    Assures I (get : ExceptT ε (StateT μ (StateM σ)) μ) Q := by
  intro m s result m' s' hI hrun
  obtain ⟨⟨rfl, rfl⟩, rfl⟩ := (Prod.mk.inj hrun).imp_left Prod.mk.inj
  exact ⟨hI, fun b hb => Except.ok.inj hb ▸ h m s hI⟩

theorem Assures.modify {f : μ → μ} (h : ∀ m s, I m s → I (f m) s) :
    Assures I (modify f : ExceptT ε (StateT μ (StateM σ)) PUnit) fun _ => True := by
  intro m s result m' s' hI hrun
  obtain ⟨⟨rfl, rfl⟩, rfl⟩ := (Prod.mk.inj hrun).imp_left Prod.mk.inj
  exact ⟨h m s hI, fun _ _ => trivial⟩

/-- The machine is used, and the program's own value is not. -/
theorem Assures.lift {x : StateM σ α}
    (h : ∀ ⦃m s a s'⦄, I m s → x.run s = (a, s') → I m s' ∧ Q a) :
    Assures I (ExceptT.lift (StateT.lift x) : ExceptT ε (StateT μ (StateM σ)) α) Q := by
  intro m s result m' s' hI hrun
  obtain ⟨⟨rfl, rfl⟩, rfl⟩ := (Prod.mk.inj hrun).imp_left Prod.mk.inj
  obtain ⟨hkept, hresult⟩ := h hI (rfl : x.run s = ((x.run s).1, (x.run s).2))
  exact ⟨hkept, fun b hb => Except.ok.inj hb ▸ hresult⟩

/-- What a program returns, its value and the machine are told by its outcome. -/
theorem outcome_inj {a b : α} {m m' : μ} {s s' : σ} (h : ((a, m), s) = ((b, m'), s')) :
    a = b ∧ m = m' ∧ s = s' := by
  obtain ⟨hreturned, hmachine⟩ := Prod.mk.inj h
  obtain ⟨hvalue, hown⟩ := Prod.mk.inj hreturned
  exact ⟨hvalue, hown, hmachine⟩

theorem run_bind_run (x : ExceptT ε (StateT μ (StateM σ)) α)
    (f : α → ExceptT ε (StateT μ (StateM σ)) β) (m : μ) (s : σ) :
    ((x >>= f).run.run m).run s = match (x.run.run m).run s with
      | ((.ok a, n), t) => ((f a).run.run n).run t
      | ((.error error, n), t) => ((.error error, n), t) := by
  rw [ExceptT.run_bind, StateT.run_bind, run_bind]
  rcases (x.run.run m).run s with ⟨⟨_ | _, n⟩, t⟩ <;> rfl

/-- If two programs end well one after the other, each of them does. -/
theorem run_bind_run_eq_ok {x : ExceptT ε (StateT μ (StateM σ)) α}
    {f : α → ExceptT ε (StateT μ (StateM σ)) β} {m m' : μ} {s s' : σ} {b : β}
    (h : ((x >>= f).run.run m).run s = ((.ok b, m'), s')) :
    ∃ a n t, (x.run.run m).run s = ((.ok a, n), t) ∧
      ((f a).run.run n).run t = ((.ok b, m'), s') := by
  rw [run_bind_run] at h
  rcases hfirst : (x.run.run m).run s with ⟨⟨error | a, n⟩, t⟩
  · rw [hfirst] at h
    exact absurd (Prod.mk.inj (Prod.mk.inj h).1).1 (by simp)
  · rw [hfirst] at h
    exact ⟨a, n, t, rfl, h⟩

theorem Assures.bind {x : ExceptT ε (StateT μ (StateM σ)) α}
    {f : α → ExceptT ε (StateT μ (StateM σ)) β} (hx : Assures I x Q)
    (hf : ∀ a, Q a → Assures I (f a) S) : Assures I (x >>= f) S := by
  intro m s result m' s' hI hrun
  rw [run_bind_run] at hrun
  rcases hfirst : (x.run.run m).run s with ⟨⟨error | a, n⟩, t⟩
  · rw [hfirst] at hrun
    obtain ⟨⟨rfl, rfl⟩, rfl⟩ := (Prod.mk.inj hrun).imp_left Prod.mk.inj
    exact ⟨(hx hI hfirst).1, fun b hb => absurd hb (by simp)⟩
  · rw [hfirst] at hrun
    obtain ⟨hkept, hresult⟩ := hx hI hfirst
    exact hf a (hresult a rfl) hkept hrun

/-! ## 4. Programs that end well -/

variable {P : μ → σ → Prop} {T : α → μ → σ → Prop} {U : β → μ → σ → Prop}

/-- If a program starts from a value of its own and a machine with a property and ends well, then what
it returns, its value and the machine have another one. -/
def Yields (P : μ → σ → Prop) (x : ExceptT ε (StateT μ (StateM σ)) α) (T : α → μ → σ → Prop) : Prop :=
  ∀ ⦃m s a m' s'⦄, P m s → (x.run.run m).run s = ((.ok a, m'), s') → T a m' s'

theorem Yields.mono {P' : μ → σ → Prop} {x : ExceptT ε (StateT μ (StateM σ)) α} (hx : Yields P x T)
    (h : ∀ m s, P' m s → P m s) : Yields P' x T :=
  fun m s _ _ _ hP hrun => hx (h m s hP) hrun

theorem Yields.pure {a : α} (h : ∀ m s, P m s → T a m s) :
    Yields P (pure a : ExceptT ε (StateT μ (StateM σ)) α) T := by
  intro m s b m' s' hP hrun
  obtain ⟨⟨hb, rfl⟩, rfl⟩ := (Prod.mk.inj hrun).imp_left Prod.mk.inj
  obtain rfl := Except.ok.inj hb
  exact h m s hP

theorem Yields.throw (error : ε) :
    Yields P (throw error : ExceptT ε (StateT μ (StateM σ)) α) T := by
  intro m s b m' s' _ hrun
  exact absurd (Prod.mk.inj (Prod.mk.inj hrun).1).1 (by rintro ⟨⟩)

theorem Yields.get {T : μ → μ → σ → Prop} (h : ∀ m s, P m s → T m m s) :
    Yields P (get : ExceptT ε (StateT μ (StateM σ)) μ) T := by
  intro m s b m' s' hP hrun
  obtain ⟨⟨hb, rfl⟩, rfl⟩ := (Prod.mk.inj hrun).imp_left Prod.mk.inj
  obtain rfl := Except.ok.inj hb
  exact h m s hP

theorem Yields.modify {f : μ → μ} {T : PUnit → μ → σ → Prop}
    (h : ∀ m s, P m s → T ⟨⟩ (f m) s) :
    Yields P (modify f : ExceptT ε (StateT μ (StateM σ)) PUnit) T := by
  intro m s b m' s' hP hrun
  obtain ⟨⟨hb, rfl⟩, rfl⟩ := (Prod.mk.inj hrun).imp_left Prod.mk.inj
  exact h m s hP

theorem Yields.lift {x : StateM σ α} (h : ∀ ⦃m s a s'⦄, P m s → x.run s = (a, s') → T a m s') :
    Yields P (ExceptT.lift (StateT.lift x) : ExceptT ε (StateT μ (StateM σ)) α) T := by
  intro m s b m' s' hP hrun
  obtain ⟨⟨hb, rfl⟩, rfl⟩ := (Prod.mk.inj hrun).imp_left Prod.mk.inj
  obtain rfl := Except.ok.inj hb
  exact h hP rfl

theorem Yields.bind {x : ExceptT ε (StateT μ (StateM σ)) α}
    {f : α → ExceptT ε (StateT μ (StateM σ)) β} (hx : Yields P x T)
    (hf : ∀ a, Yields (T a) (f a) U) : Yields P (x >>= f) U := by
  intro m s b m' s' hP hrun
  obtain ⟨a, n, t, hfirst, hnext⟩ := run_bind_run_eq_ok hrun
  exact hf a (hx hP hfirst) hnext

end Graft
