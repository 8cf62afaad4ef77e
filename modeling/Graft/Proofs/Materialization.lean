/-
What becomes of a name when a unit is needed.

As for the requests to a registry, one statement for each step lists every way in which it can end.
The machine is arbitrary here, too: nothing is assumed of what a file holds or of whether it can be
read, and what a store has read before may be anything.
-/
import Graft.Proofs.Running
import Graft.Wrapper

set_option autoImplicit false

namespace Graft.WrapperStore

variable {σ : Type} [Host (StateM σ)]
variable {store store' : WrapperStore} {blueprints blueprints' : Blueprints} {name : String}
variable {s s' : σ}

/-- A name stands for itself where nothing is kept; otherwise its record decides, the one that was
read before or else the one that can be loaded now. Only a record that was loaded is remembered. -/
theorem resolve_cases {result : Except WrapperError String}
    (h : (store.resolve blueprints name : StateM σ _).run s = ((result, store'), s')) :
    (store.path? name = none ∧ result = .ok name ∧ store' = store ∧ s' = s) ∨
      ∃ path, store.path? name = some path ∧
        ((∃ wrapper, store.loaded.get? path = some wrapper ∧ result = .ok wrapper.composes ∧
            store' = store ∧ s' = s) ∨
          (store.loaded.get? path = none ∧
            ((∃ error, (load blueprints name path : ExceptT _ (StateM σ) _).run.run s
                = (.error error, s') ∧ result = .error error ∧ store' = store) ∨
              ∃ wrapper, (load blueprints name path : ExceptT _ (StateM σ) _).run.run s
                = (.ok wrapper, s') ∧ result = .ok wrapper.composes ∧
                store' = { store with loaded := store.loaded.insert path wrapper }))) := by
  unfold resolve at h
  cases hpath : store.path? name with
  | none =>
    simp only [hpath, run_pure] at h
    obtain ⟨⟨rfl, rfl⟩, rfl⟩ := h
    exact .inl ⟨rfl, rfl, rfl, rfl⟩
  | some path =>
    refine .inr ⟨path, rfl, ?_⟩
    cases hloaded : store.loaded.get? path with
    | some wrapper =>
      simp only [hpath, hloaded, run_pure] at h
      obtain ⟨⟨rfl, rfl⟩, rfl⟩ := h
      exact .inl ⟨wrapper, rfl, rfl, rfl, rfl⟩
    | none =>
      -- A record that cannot be loaded is not remembered, so it is looked for again next time.
      refine .inr ⟨rfl, ?_⟩
      rcases hload : (load blueprints name path : ExceptT _ (StateM σ) _).run.run s
        with ⟨error | wrapper, s₁⟩
      · simp only [hpath, hloaded, run_bind, hload, run_pure] at h
        obtain ⟨⟨rfl, rfl⟩, rfl⟩ := h
        exact .inl ⟨error, rfl, rfl, rfl⟩
      · simp only [hpath, hloaded, run_bind, hload, run_pure] at h
        obtain ⟨⟨rfl, rfl⟩, rfl⟩ := h
        exact .inr ⟨wrapper, rfl, rfl, rfl⟩

/-- An instance stands for itself. For a name the blueprint is looked up that it stands for, and an
instance is made if there is one; in every other case none is made. -/
theorem materialize_cases {unit : BundleRef} {made : Except WrapperError Instance}
    (h : (store.materialize blueprints unit : StateM σ _).run s
      = ((made, store', blueprints'), s')) :
    (∃ i, unit = .live i ∧ made = .ok i ∧ store' = store ∧ blueprints' = blueprints ∧ s' = s) ∨
      ∃ name result, unit = .named name ∧
        (store.resolve blueprints name : StateM σ _).run s = ((result, store'), s') ∧
        ((∃ error, result = .error error ∧ made = .error error ∧ blueprints' = blueprints) ∨
          (∃ composes, result = .ok composes ∧ blueprints.instantiate? composes = none ∧
            made = .error (.unresolved name) ∧ blueprints' = blueprints) ∨
          ∃ composes i, result = .ok composes ∧
            blueprints.instantiate? composes = some (i, blueprints') ∧ made = .ok i) := by
  cases unit with
  | live i =>
    simp only [materialize, run_pure] at h
    obtain ⟨⟨rfl, rfl, rfl⟩, rfl⟩ := h
    exact .inl ⟨i, rfl, rfl, rfl, rfl, rfl⟩
  | named name =>
    rcases hresolve : (store.resolve blueprints name : StateM σ _).run s
      with ⟨⟨error | composes, store₁⟩, s₁⟩
    · simp only [materialize, run_bind, hresolve, run_pure] at h
      obtain ⟨⟨rfl, rfl, rfl⟩, rfl⟩ := h
      exact .inr ⟨name, _, rfl, hresolve, .inl ⟨error, rfl, rfl, rfl⟩⟩
    · simp only [materialize, run_bind, hresolve] at h
      cases hmake : blueprints.instantiate? composes with
      | none =>
        simp only [hmake, run_pure] at h
        obtain ⟨⟨rfl, rfl, rfl⟩, rfl⟩ := h
        exact .inr ⟨name, _, rfl, hresolve, .inr (.inl ⟨composes, rfl, hmake, rfl, rfl⟩)⟩
      | some pair =>
        obtain ⟨i, after⟩ := pair
        simp only [hmake, run_pure] at h
        obtain ⟨⟨rfl, rfl, rfl⟩, rfl⟩ := h
        exact .inr ⟨name, _, rfl, hresolve, .inr (.inr ⟨composes, i, rfl, hmake, rfl⟩)⟩

/-- A failure to produce an instance makes none, and leaves the store as it was unless a record was
loaded that names no blueprint. -/
theorem unchanged_of_materialize_error {unit : BundleRef} {error : WrapperError}
    (h : (store.materialize blueprints unit : StateM σ _).run s
      = ((.error error, store', blueprints'), s')) :
    blueprints' = blueprints ∧ (store' = store ∨ ∃ name, error = .unresolved name) := by
  rcases materialize_cases h with ⟨i, -, hok, -⟩ | ⟨name, result, -, hresolve, hend⟩
  · exact absurd hok (by simp)
  · rcases hend with ⟨cause, rfl, hcause, rfl⟩ | ⟨_, -, -, hcause, rfl⟩ | ⟨_, _, -, -, hok⟩
    · -- The record could not be had, so nothing was remembered.
      refine ⟨rfl, .inl ?_⟩
      rcases resolve_cases hresolve with ⟨-, hok, -⟩ | ⟨_, -, ⟨_, -, hok, -⟩ | ⟨-, hload⟩⟩
      · exact absurd hok (by simp)
      · exact absurd hok (by simp)
      · rcases hload with ⟨_, -, -, hstore⟩ | ⟨_, -, hok, -⟩
        · exact hstore
        · exact absurd hok (by simp)
    · exact ⟨rfl, .inr ⟨name, Except.error.inj hcause⟩⟩
    · exact absurd hok (by simp)

end Graft.WrapperStore
