/-
What each request to a registry can do to it.

One statement for each request lists every way in which it can end, with what the registry is then,
so that no later proof has to open a definition of the registry again. The machine is any state with
any services on it: files may be there or not, and every service may fail whenever it likes.
-/
import Graft.Proofs.Running
import Graft.Registry

set_option autoImplicit false

namespace Graft

namespace Registry

variable {σ : Type} [Host (StateM σ)]
variable {r r' : Registry} {s s' : σ}

/-! ## 1. Registering -/

/-- An installation is stopped at the type and changes nothing; or, apart from what it logs, it is the
pure change of the table and the ledger. -/
theorem install_cases {destination : String} {handlers : List (String × Handler)}
    {source : Provenance} {result : Except GateError Registry}
    (h : (r.install destination handlers source : StateM σ _).run s = (result, s')) :
    (∃ error, r.catalog.check destination = .error error ∧ result = .error error ∧ s' = s) ∨
      (r.catalog.check destination = .ok () ∧
        result = .ok (r.installed destination handlers source).2) := by
  unfold install at h
  cases hcheck : r.catalog.check destination with
  | error error =>
    simp only [hcheck, run_pure] at h
    obtain ⟨rfl, rfl⟩ := Prod.mk.inj h
    exact .inl ⟨error, rfl, rfl, rfl⟩
  | ok _ =>
    simp only [hcheck, run_bind, run_pure] at h
    obtain ⟨rfl, -⟩ := Prod.mk.inj h
    exact .inr ⟨rfl, rfl⟩

/-- The gate looks at the destination first and then at the unit. -/
theorem gate_cases {destination : String} {unit : BundleRef} {result : Except GateError Unit}
    (h : r.gate destination unit = result) :
    (r.catalog.admits destination = false ∧ result = .error (.destination destination)) ∨
      (r.catalog.admits destination = true ∧ r.blueprints.admits unit = false ∧
        result = .error (.unit unit.describe)) ∨
      (r.catalog.admits destination = true ∧ r.blueprints.admits unit = true ∧
        result = .ok ()) := by
  subst h
  unfold gate Catalog.check Blueprints.check
  cases r.catalog.admits destination with
  | false => exact .inl ⟨rfl, rfl⟩
  | true =>
    cases r.blueprints.admits unit with
    | false => exact .inr (.inl ⟨rfl, rfl, rfl⟩)
    | true => exact .inr (.inr ⟨rfl, rfl, rfl⟩)

theorem admits_of_gate {destination : String} {unit : BundleRef}
    (h : r.gate destination unit = .ok ()) :
    r.catalog.admits destination = true ∧ r.blueprints.admits unit = true := by
  rcases gate_cases h with ⟨-, herror⟩ | ⟨-, -, herror⟩ | ⟨htype, hunit, -⟩
  · exact absurd herror (by simp)
  · exact absurd herror (by simp)
  · exact ⟨htype, hunit⟩

/-- What the gate lets through goes to a type that takes operations. -/
theorem check_of_gate {destination : String} {unit : BundleRef}
    (h : r.gate destination unit = .ok ()) : r.catalog.check destination = .ok () := by
  rw [Catalog.check, (admits_of_gate h).1]
  rfl

/-- A registration of a unit is stopped at the gate and changes nothing; or it fails to produce an
instance and changes at most the records in use and the counts of instances; or it installs the
interface of the instance as one batch. -/
theorem register_cases {destination : String} {unit : BundleRef}
    {result : Except RegisterError Nat}
    (h : (r.register destination unit : StateM σ _).run s = ((result, r'), s')) :
    (∃ error, r.gate destination unit = .error error ∧ result = .error (.gate error) ∧ r' = r ∧
        s' = s) ∨
      (r.gate destination unit = .ok () ∧ ∃ made wrappers blueprints s₁,
        (r.wrappers.materialize r.blueprints unit : StateM σ _).run s
          = ((made, wrappers, blueprints), s₁) ∧
        ((∃ error, made = .error error ∧ result = .error (.wrapper error) ∧ s' = s₁ ∧
            r' = { r with wrappers := wrappers, blueprints := blueprints }) ∨
          ∃ i, made = .ok i ∧ result = .ok i.interface.entries.length ∧
            r' = ({ r with wrappers := wrappers, blueprints := blueprints }.installed destination
              i.interface.entries (provenance unit i)).2)) := by
  unfold register at h
  cases hgate : r.gate destination unit with
  | error error =>
    simp only [hgate, run_pure] at h
    obtain ⟨⟨rfl, rfl⟩, rfl⟩ := h
    exact .inl ⟨error, rfl, rfl, rfl, rfl⟩
  | ok _ =>
    rcases hmade : (r.wrappers.materialize r.blueprints unit : StateM σ _).run s
      with ⟨⟨made, wrappers, blueprints⟩, s₁⟩
    simp only [hgate, run_bind, hmade] at h
    refine .inr ⟨rfl, made, wrappers, blueprints, s₁, rfl, ?_⟩
    cases made with
    | error error =>
      simp only [run_pure] at h
      obtain ⟨⟨rfl, rfl⟩, rfl⟩ := h
      exact .inl ⟨error, rfl, rfl, rfl, rfl⟩
    | ok i =>
      rcases hinstall : (install { r with wrappers := wrappers, blueprints := blueprints } destination
        i.interface.entries (provenance unit i) : StateM σ _).run s₁ with ⟨outcome, s₂⟩
      simp only [run_bind, hinstall] at h
      -- Nothing in between changes the types, so the type passes a second time.
      have hopen : r.catalog.check destination = .ok () := check_of_gate hgate
      rcases install_cases hinstall with ⟨error, hclosed, -, -⟩ | ⟨-, rfl⟩
      · exact absurd (hclosed.symm.trans hopen) (by simp)
      · simp only [run_pure] at h
        obtain ⟨⟨rfl, rfl⟩, rfl⟩ := h
        exact .inr ⟨i, rfl, rfl, rfl⟩

/-- A registration of a handler is stopped at the gate and changes nothing, or installs it. -/
theorem registerOperation_cases {destination name : String} {handler : Handler}
    {result : Except GateError Unit}
    (h : (r.registerOperation destination name handler : StateM σ _).run s = ((result, r'), s')) :
    (∃ error, r.catalog.check destination = .error error ∧ result = .error error ∧ r' = r ∧
        s' = s) ∨
      (r.catalog.check destination = .ok () ∧ result = .ok () ∧
        r' = (r.installed destination [(name, handler)] .handler).2) := by
  unfold registerOperation at h
  cases hcheck : r.catalog.check destination with
  | error error =>
    simp only [hcheck, run_pure] at h
    obtain ⟨⟨rfl, rfl⟩, rfl⟩ := h
    exact .inl ⟨error, rfl, rfl, rfl, rfl⟩
  | ok _ =>
    rcases hinstall : (r.install destination [(name, handler)] .handler : StateM σ _).run s
      with ⟨outcome, s₁⟩
    simp only [hcheck, run_bind, hinstall] at h
    rcases install_cases hinstall with ⟨error, hclosed, -, -⟩ | ⟨-, rfl⟩
    · exact absurd (hclosed.symm.trans hcheck) (by simp)
    · simp only [run_pure] at h
      obtain ⟨⟨rfl, rfl⟩, rfl⟩ := h
      exact .inr ⟨rfl, rfl, rfl⟩

/-- Flushing changes the records in use and nothing else. -/
theorem flushWrappers_cases {result : Except WrapperError Nat}
    (h : (r.flushWrappers : StateM σ _).run s = ((result, r'), s')) :
    ∃ wrappers, r' = { r with wrappers := wrappers } := by
  unfold flushWrappers at h
  simp only [run_bind, run_pure] at h
  obtain ⟨⟨rfl, rfl⟩, rfl⟩ := h
  exact ⟨_, rfl⟩

/-! ## 2. Calling -/

/-- A call finds no operation; or its arguments are refused; or the body of the operation that was
found runs, and whatever it does to the registry is what the call does. -/
theorem invoke_cases {steps : Nat} {destination name : String} {receiver : Option Value}
    {arguments : List Value} {outcome : Option (Except CallError Value)}
    (h : (r.invoke steps destination name receiver arguments : StateM σ _).run s
      = ((outcome, r'), s')) :
    (r.dispatch.get? destination name = none ∧
        outcome = some (.error (.unknownOperation destination name)) ∧ r' = r ∧ s' = s) ∨
      ∃ op, r.dispatch.get? destination name = some op ∧
        ((∃ fault, op.handler.signature.check arguments = .error fault ∧
            outcome = some (.error (.invocation ⟨op.destination, op.name, fault⟩)) ∧ r' = r ∧
            s' = s) ∨
          (op.handler.signature.check arguments = .ok () ∧ ∃ ending,
            (run steps (op.handler.body ⟨receiver, op.destination, op.name⟩ arguments) r
              : StateM σ _).run s = ((ending, r'), s') ∧
            outcome = ending.map (fun ending =>
              (attributed op.destination op.name ending.captured).mapError .invocation))) := by
  unfold invoke invokeWith at h
  cases hop : r.dispatch.get? destination name with
  | none =>
    simp only [hop, run_pure] at h
    obtain ⟨⟨rfl, rfl⟩, rfl⟩ := h
    exact .inl ⟨rfl, rfl, rfl, rfl⟩
  | some op =>
    refine .inr ⟨op, rfl, ?_⟩
    unfold attemptWith at h
    cases hcheck : op.handler.signature.check arguments with
    | error fault =>
      simp only [hop, hcheck, run_bind, run_pure] at h
      obtain ⟨⟨rfl, rfl⟩, rfl⟩ := h
      exact .inl ⟨fault, rfl, rfl, rfl, rfl⟩
    | ok _ =>
      rcases hrun : (run steps (op.handler.body ⟨receiver, op.destination, op.name⟩ arguments) r
        : StateM σ _).run s with ⟨⟨ending, r₁⟩, s₁⟩
      simp only [hop, hcheck, run_bind, run_pure, hrun] at h
      obtain ⟨⟨rfl, rfl⟩, rfl⟩ := h
      -- Whether the body ended decides the outcome and not what became of the registry.
      refine .inr ⟨rfl, ending, rfl, ?_⟩
      cases ending <;> rfl

/-! ## 3. Running scripts -/

/-- A run without steps left stops where it is. -/
theorem run_zero_eq {script : Script} {ending : Option Ending}
    (h : (run 0 script r : StateM σ _).run s = ((ending, r'), s')) :
    ending = none ∧ r' = r ∧ s' = s := by
  simp only [run, run_pure] at h
  obtain ⟨⟨rfl, rfl⟩, rfl⟩ := h
  exact ⟨rfl, rfl, rfl⟩

/-- One step of a run: the script ends; or a call within it runs out of steps, and the run with it;
or the request at its head is served and the rest runs with one step fewer. -/
theorem run_succ_cases {steps : Nat} {script : Script} {ending : Option Ending}
    (h : (run (steps + 1) script r : StateM σ _).run s = ((ending, r'), s')) :
    ((∃ outcome, script = .done outcome ∧ ending = some (.returned outcome)) ∧ r' = r ∧ s' = s) ∨
    ((∃ payload, script = .panic payload ∧ ending = some (.panicked payload)) ∧ r' = r ∧ s' = s) ∨
    (∃ destination name receiver arguments next,
      script = .invoke destination name receiver arguments next ∧
      (((r.invoke steps destination name receiver arguments : StateM σ _).run s
          = ((none, r'), s') ∧ ending = none) ∨
        ∃ result r₁ s₁, (r.invoke steps destination name receiver arguments : StateM σ _).run s
            = ((some result, r₁), s₁) ∧
          (run steps (next result) r₁ : StateM σ _).run s₁ = ((ending, r'), s'))) ∨
    (∃ destination unit next, script = .register destination unit next ∧ ∃ result r₁ s₁,
      (r.register destination unit : StateM σ _).run s = ((result, r₁), s₁) ∧
      (run steps (next result) r₁ : StateM σ _).run s₁ = ((ending, r'), s')) ∨
    (∃ destination name handler next, script = .registerOperation destination name handler next ∧
      ∃ result r₁ s₁, (r.registerOperation destination name handler : StateM σ _).run s
        = ((result, r₁), s₁) ∧
      (run steps (next result) r₁ : StateM σ _).run s₁ = ((ending, r'), s')) ∨
    ∃ next, script = .reset next ∧
      (run steps next r.reset : StateM σ _).run s = ((ending, r'), s') := by
  cases script with
  | done outcome =>
    simp only [run, run_pure] at h
    obtain ⟨⟨rfl, rfl⟩, rfl⟩ := h
    exact .inl ⟨⟨outcome, rfl, rfl⟩, rfl, rfl⟩
  | panic payload =>
    simp only [run, run_pure] at h
    obtain ⟨⟨rfl, rfl⟩, rfl⟩ := h
    exact .inr (.inl ⟨⟨payload, rfl, rfl⟩, rfl, rfl⟩)
  | invoke destination name receiver arguments next =>
    refine .inr (.inr (.inl ⟨destination, name, receiver, arguments, next, rfl, ?_⟩))
    rcases hcall : (r.invoke steps destination name receiver arguments : StateM σ _).run s
      with ⟨⟨outcome, r₁⟩, s₁⟩
    -- A run refers to itself for the bodies of its calls: that call is `invoke`, unfolded.
    have hwith : (invokeWith (run steps) destination name receiver arguments r
      : StateM σ _).run s = ((outcome, r₁), s₁) := hcall
    simp only [run, run_bind, hwith] at h
    cases outcome with
    | none =>
      simp only [run_pure] at h
      obtain ⟨⟨rfl, rfl⟩, rfl⟩ := h
      exact .inl ⟨rfl, rfl⟩
    | some result => exact .inr ⟨result, r₁, s₁, rfl, h⟩
  | register destination unit next =>
    refine .inr (.inr (.inr (.inl ⟨destination, unit, next, rfl, ?_⟩)))
    simp only [run, run_bind] at h
    exact ⟨_, _, _, rfl, h⟩
  | registerOperation destination name handler next =>
    refine .inr (.inr (.inr (.inr (.inl ⟨destination, name, handler, next, rfl, ?_⟩))))
    simp only [run, run_bind] at h
    exact ⟨_, _, _, rfl, h⟩
  | reset next =>
    simp only [run] at h
    exact .inr (.inr (.inr (.inr (.inr ⟨next, rfl, h⟩))))

end Registry

end Graft
