/-
The registries that come about while an application uses one.

An application declares types, defines blueprints, registers, calls, flushes and resets, in any
order. The body of an operation that it calls may do the same to the registry from within, to any
depth, so a registry is also there to be seen in the middle of a call. `Script.Passes` lists what a
running script passes through, `Use.Passes` what one use of the application does, and
`Registry.Reached` collects both over every sequence of uses. The machine below is arbitrary and may
be a different one at the beginning of every use.

The principle to prove something of all of them is `Stable.of_reached`: it is enough that a new
registry has the property and that the five primitive changes keep it.
-/
import Graft.Proofs.Registration

set_option autoImplicit false

namespace Graft

/-! ## 1. What a script passes through -/

section

variable {σ : Type} [Host (StateM σ)]

/-- The registries that a script passes through when it starts in a given one, each with the state
of the machine at the time: the one that it starts in, those inside of the calls that it makes, and
those after each of its requests. -/
inductive Script.Passes : Script → Registry → σ → Registry → σ → Prop
  | here (script : Script) (r : Registry) (s : σ) : Passes script r s r s
  | within {destination name : String} {receiver : Option Value} {arguments : List Value}
      {next : Except CallError Value → Script} {op : Operation} {r r' : Registry} {s s' : σ}
      (hop : r.dispatch.get? destination name = some op)
      (hcheck : op.handler.signature.check arguments = .ok ())
      (h : Passes (op.handler.body ⟨receiver, op.destination, op.name⟩ arguments) r s r' s') :
      Passes (.invoke destination name receiver arguments next) r s r' s'
  | invoked {steps : Nat} {destination name : String} {receiver : Option Value}
      {arguments : List Value} {next : Except CallError Value → Script}
      {result : Except CallError Value} {r r₁ r' : Registry} {s s₁ s' : σ}
      (hcall : (Registry.invoke steps destination name receiver arguments r : StateM σ _).run s
        = ((some result, r₁), s₁))
      (h : Passes (next result) r₁ s₁ r' s') :
      Passes (.invoke destination name receiver arguments next) r s r' s'
  | registered {destination : String} {unit : BundleRef}
      {next : Except RegisterError Nat → Script} {result : Except RegisterError Nat}
      {r r₁ r' : Registry} {s s₁ s' : σ}
      (hreg : (r.register destination unit : StateM σ _).run s = ((result, r₁), s₁))
      (h : Passes (next result) r₁ s₁ r' s') :
      Passes (.register destination unit next) r s r' s'
  | registeredOperation {destination name : String} {handler : Handler}
      {next : Except GateError Unit → Script} {result : Except GateError Unit}
      {r r₁ r' : Registry} {s s₁ s' : σ}
      (hreg : (r.registerOperation destination name handler : StateM σ _).run s
        = ((result, r₁), s₁))
      (h : Passes (next result) r₁ s₁ r' s') :
      Passes (.registerOperation destination name handler next) r s r' s'
  | reset {next : Script} {r r' : Registry} {s s' : σ} (h : Passes next r.reset s r' s') :
      Passes (.reset next) r s r' s'

/-- Where a run stops, finished or out of steps, the script has passed. So what holds wherever a
script passes holds in particular of every outcome of `Registry.run`. -/
theorem Script.passes_of_run {steps : Nat} {script : Script} {r r' : Registry} {s s' : σ}
    {ending : Option Registry.Ending}
    (h : (Registry.run steps script r : StateM σ _).run s = ((ending, r'), s')) :
    Script.Passes script r s r' s' := by
  induction steps generalizing script r s ending with
  | zero =>
    obtain ⟨-, rfl, rfl⟩ := Registry.run_zero_eq h
    exact .here _ _ _
  | succ steps ih =>
    rcases Registry.run_succ_cases h with ⟨-, rfl, rfl⟩ | ⟨-, rfl, rfl⟩ |
      ⟨_, _, _, _, _, rfl, ⟨hcall, -⟩ | ⟨_, _, _, hcall, hnext⟩⟩ |
      ⟨_, _, _, rfl, _, _, _, hreg, hnext⟩ | ⟨_, _, _, _, rfl, _, _, _, hreg, hnext⟩ |
      ⟨_, rfl, hnext⟩
    · exact .here _ _ _
    · exact .here _ _ _
    · -- Out of steps within the call: then its operation was found and its body was running.
      rcases Registry.invoke_cases hcall with
        ⟨-, hnone, -⟩ | ⟨op, hop, ⟨_, -, hnone, -⟩ | ⟨hcheck, _, hrun, -⟩⟩
      · exact absurd hnone (by simp)
      · exact absurd hnone (by simp)
      · exact .within hop hcheck (ih hrun)
    · exact .invoked hcall (ih hnext)
    · exact .registered hreg (ih hnext)
    · exact .registeredOperation hreg (ih hnext)
    · exact .reset (ih hnext)

end

/-! ## 2. What an application does -/

/-- One use of a registry by an application. -/
inductive Use
  | declare (name : String) (extensible : Bool)
  | define (name : String) (kind : Blueprint.Kind) (make : Nat → Bundle)
  | register (destination : String) (unit : BundleRef)
  | registerOperation (destination name : String) (handler : Handler)
  | invoke (destination name : String) (receiver : Option Value) (arguments : List Value)
  | flushWrappers
  | reset

namespace Use

variable {σ : Type} [Host (StateM σ)]

/-- Makes a use, a call for at most the given number of steps. Tells whether it came to its end. -/
def perform (steps : Nat) (use : Use) (r : Registry) : StateM σ (Bool × Registry) :=
  match use with
  | .declare name extensible => pure (true, r.declare name extensible)
  | .define name kind make => pure (true, r.define name kind make)
  | .register destination unit => do
    let (_, r) ← r.register destination unit
    return (true, r)
  | .registerOperation destination name handler => do
    let (_, r) ← r.registerOperation destination name handler
    return (true, r)
  | .invoke destination name receiver arguments => do
    let (outcome, r) ← r.invoke steps destination name receiver arguments
    return (outcome.isSome, r)
  | .flushWrappers => do
    let (_, r) ← r.flushWrappers
    return (true, r)
  | .reset => pure (true, r.reset)

/-- The registries during a use: the one before it, those inside of a call, and where it stops. -/
inductive Passes : Use → Registry → σ → Registry → σ → Prop
  | before (use : Use) (r : Registry) (s : σ) : Passes use r s r s
  | within {destination name : String} {receiver : Option Value} {arguments : List Value}
      {op : Operation} {r r' : Registry} {s s' : σ}
      (hop : r.dispatch.get? destination name = some op)
      (hcheck : op.handler.signature.check arguments = .ok ())
      (h : Script.Passes (op.handler.body ⟨receiver, op.destination, op.name⟩ arguments)
        r s r' s') : Passes (.invoke destination name receiver arguments) r s r' s'
  | after {steps : Nat} {use : Use} {finished : Bool} {r r' : Registry} {s s' : σ}
      (h : (use.perform steps r : StateM σ _).run s = ((finished, r'), s')) :
      Passes use r s r' s'

end Use

namespace Registry

/-- The registries between two uses. A use that has not come to its end has nothing after it. -/
inductive Between (σ : Type) [Host (StateM σ)] (mode : Ledger.Mode) : Registry → Prop
  | new (manifest : Manifest) (directory : Option Path) :
      Between σ mode (ofManifest manifest ⟨directory, mode⟩)
  | used (use : Use) (steps : Nat) (s : σ) {r r' : Registry} {s' : σ} (h : Between σ mode r)
      (huse : (use.perform steps r : StateM σ _).run s = ((true, r'), s')) : Between σ mode r'

/-- The registries that come about at all, in the middle of a call or between two uses. -/
inductive Reached (σ : Type) [Host (StateM σ)] (mode : Ledger.Mode) : Registry → Prop
  | during (use : Use) (s : σ) {r r' : Registry} {s' : σ} (h : Between σ mode r)
      (huse : use.Passes r s r' s') : Reached σ mode r'

/-! ## 3. What they all have in common -/

/-- A property that the primitive changes keep. Everything that a registry does is one of these or
nothing: installing a batch, replacing the records in use and the blueprints, declaring, defining
and resetting. -/
structure Stable (P : Registry → Prop) : Prop where
  declare : ∀ {r : Registry} (name : String) (extensible : Bool), P r → P (r.declare name extensible)
  define : ∀ {r : Registry} (name : String) (kind : Blueprint.Kind) (make : Nat → Bundle),
    P r → P (r.define name kind make)
  rewrap : ∀ {r : Registry} (wrappers : WrapperStore) (blueprints : Blueprints),
    P r → P { r with wrappers := wrappers, blueprints := blueprints }
  install : ∀ {r : Registry} (destination : String) (handlers : List (String × Handler))
    (source : Provenance), P r → P (r.installed destination handlers source).2
  reset : ∀ {r : Registry}, P r → P r.reset

namespace Stable

variable {σ : Type} [Host (StateM σ)]
variable {P : Registry → Prop} {r r' : Registry} {s s' : σ}

theorem of_register (hP : Stable P) {destination : String} {unit : BundleRef}
    {result : Except RegisterError Nat}
    (h : (r.register destination unit : StateM σ _).run s = ((result, r'), s')) (hr : P r) :
    P r' := by
  rcases register_cases h with
    ⟨_, -, -, rfl, -⟩ | ⟨-, _, w, b, _, -, ⟨_, -, -, -, rfl⟩ | ⟨_, -, -, rfl⟩⟩
  · exact hr
  · exact hP.rewrap w b hr
  · exact hP.install _ _ _ (hP.rewrap w b hr)

theorem of_registerOperation (hP : Stable P) {destination name : String} {handler : Handler}
    {result : Except GateError Unit}
    (h : (r.registerOperation destination name handler : StateM σ _).run s = ((result, r'), s'))
    (hr : P r) : P r' := by
  rcases registerOperation_cases h with ⟨_, -, -, rfl, -⟩ | ⟨-, -, rfl⟩
  · exact hr
  · exact hP.install _ _ _ hr

theorem of_invoke_of_run {steps : Nat} {destination name : String}
    {receiver : Option Value} {arguments : List Value} {outcome : Option (Except CallError Value)}
    (hrun : ∀ {script : Script} {ending : Option Ending} {r r' : Registry} {s s' : σ},
      (run steps script r : StateM σ _).run s = ((ending, r'), s') → P r → P r')
    (h : (r.invoke steps destination name receiver arguments : StateM σ _).run s
      = ((outcome, r'), s')) (hr : P r) : P r' := by
  rcases invoke_cases h with ⟨-, -, rfl, -⟩ | ⟨_, -, ⟨_, -, -, rfl, -⟩ | ⟨-, _, hbody, -⟩⟩
  · exact hr
  · exact hr
  · exact hrun hbody hr

/-- The run lemma. The induction is on the number of steps, for every call inside of a run is a
shorter run. -/
theorem of_run (hP : Stable P) {steps : Nat} {script : Script} {ending : Option Ending}
    (h : (run steps script r : StateM σ _).run s = ((ending, r'), s')) (hr : P r) : P r' := by
  induction steps generalizing script r s ending r' s' with
  | zero =>
    obtain ⟨-, rfl, -⟩ := run_zero_eq h
    exact hr
  | succ steps ih =>
    rcases run_succ_cases h with ⟨-, rfl, -⟩ | ⟨-, rfl, -⟩ |
      ⟨_, _, _, _, _, -, ⟨hcall, -⟩ | ⟨_, _, _, hcall, hnext⟩⟩ |
      ⟨_, _, _, -, _, _, _, hreg, hnext⟩ | ⟨_, _, _, _, -, _, _, _, hreg, hnext⟩ |
      ⟨_, -, hnext⟩
    · exact hr
    · exact hr
    -- A call inside of the run is a run with fewer steps, and so is what comes after it.
    · exact of_invoke_of_run ih hcall hr
    · exact ih hnext (of_invoke_of_run ih hcall hr)
    · exact ih hnext (hP.of_register hreg hr)
    · exact ih hnext (hP.of_registerOperation hreg hr)
    · exact ih hnext (hP.reset hr)

theorem of_invoke (hP : Stable P) {steps : Nat} {destination name : String}
    {receiver : Option Value} {arguments : List Value} {outcome : Option (Except CallError Value)}
    (h : (r.invoke steps destination name receiver arguments : StateM σ _).run s
      = ((outcome, r'), s')) (hr : P r) : P r' :=
  of_invoke_of_run hP.of_run h hr

/-- Wherever a script passes, what held at its start still holds. -/
theorem of_scriptPasses (hP : Stable P) {script : Script} (h : Script.Passes script r s r' s')
    (hr : P r) : P r' := by
  induction h with
  | here => exact hr
  | within _ _ _ ih => exact ih hr
  | invoked hcall _ ih => exact ih (hP.of_invoke hcall hr)
  | registered hreg _ ih => exact ih (hP.of_register hreg hr)
  | registeredOperation hreg _ ih => exact ih (hP.of_registerOperation hreg hr)
  | reset _ ih => exact ih (hP.reset hr)

/-- The step lemma: one use, finished or not. -/
theorem of_perform (hP : Stable P) {use : Use} {steps : Nat} {finished : Bool}
    (h : (use.perform steps r : StateM σ _).run s = ((finished, r'), s')) (hr : P r) : P r' := by
  cases use with
  | declare name extensible =>
    simp only [Use.perform, run_pure] at h
    obtain ⟨⟨rfl, rfl⟩, rfl⟩ := h
    exact hP.declare name extensible hr
  | define name kind make =>
    simp only [Use.perform, run_pure] at h
    obtain ⟨⟨rfl, rfl⟩, rfl⟩ := h
    exact hP.define name kind make hr
  | register destination unit =>
    simp only [Use.perform, run_bind, run_pure] at h
    obtain ⟨⟨rfl, rfl⟩, rfl⟩ := h
    exact hP.of_register rfl hr
  | registerOperation destination name handler =>
    simp only [Use.perform, run_bind, run_pure] at h
    obtain ⟨⟨rfl, rfl⟩, rfl⟩ := h
    exact hP.of_registerOperation rfl hr
  | invoke destination name receiver arguments =>
    simp only [Use.perform, run_bind, run_pure] at h
    obtain ⟨⟨rfl, rfl⟩, rfl⟩ := h
    exact hP.of_invoke rfl hr
  | flushWrappers =>
    rcases hflush : (r.flushWrappers : StateM σ _).run s with ⟨⟨result, r₁⟩, s₁⟩
    simp only [Use.perform, run_bind, run_pure, hflush] at h
    obtain ⟨⟨rfl, rfl⟩, rfl⟩ := h
    obtain ⟨w, rfl⟩ := flushWrappers_cases hflush
    exact hP.rewrap w r.blueprints hr
  | reset =>
    simp only [Use.perform, run_pure] at h
    obtain ⟨⟨rfl, rfl⟩, rfl⟩ := h
    exact hP.reset hr

/-- The principle: what a new registry has and the primitive changes keep, every registry has that
ever comes about. -/
theorem of_reached (hP : Stable P) {mode : Ledger.Mode}
    (hnew : ∀ manifest directory, P (ofManifest manifest ⟨directory, mode⟩))
    (h : Reached σ mode r) : P r := by
  have hbetween : ∀ {r : Registry}, Between σ mode r → P r := by
    intro r hr
    induction hr with
    | new manifest directory => exact hnew manifest directory
    | used _ _ _ _ huse ih => exact hP.of_perform huse ih
  -- In the middle of a use it is the last registry between two uses that the property comes from.
  obtain ⟨_, _, hr, huse⟩ := h
  cases huse with
  | before => exact hbetween hr
  | within _ _ hbody => exact hP.of_scriptPasses hbody (hbetween hr)
  | after hperform => exact hP.of_perform hperform (hbetween hr)

end Stable

end Registry

end Graft
