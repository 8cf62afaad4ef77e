/-
What a call does and what it answers.

A call looks its operation up once, checks the arguments and runs the operation's script; how the
script ends is what the call answers. Running takes a number of steps, and the answer must not depend
on it: a run that has ended ends alike with more steps (`Registry.run_mono`). So it can be said without
steps that a script ends (`Script.Ends`) and that a call is answered (`Registry.Answers`), both in one
way at most. A call from within a script is answered like any other, so what is said of calls holds of
nested ones, and their faults and panics are caught like all others.

That a fault carries the type and the name of the call, and not just what the operation carries, is an
invariant of the table: every operation stands under its own type and name (`Registry.Labelled`).

The main statement is `Registry.invocation_captured`.
-/
import Graft.Proofs.Agreement
import Graft.Proofs.Moments

set_option autoImplicit false

namespace Graft

/-! ## 1. Labels -/

namespace Registry

/-- Every operation stands in the table under its own type and name. -/
def Labelled (r : Registry) : Prop :=
  ∀ destination name op, r.dispatch.get? destination name = some op →
    op.destination = destination ∧ op.name = name

theorem get?_empty (destination name : String) :
    Dispatch.empty.get? destination name = none := rfl

/-- What stands under a name after a batch stood there before or belongs to the batch. -/
theorem get?_foldl_insert_cases {batch : List Operation} {before : OrderedMap String Operation}
    {name : String} {op : Operation}
    (h : (batch.foldl (fun operations op => operations.insert op.name op) before).get? name
      = some op) :
    before.get? name = some op ∨ (op ∈ batch ∧ op.name = name) := by
  induction batch generalizing before with
  | nil => exact .inl h
  | cons first rest ih =>
    rcases ih h with hfirst | ⟨hrest, hname⟩
    · rw [OrderedMap.get?_insert] at hfirst
      split at hfirst
      · next hname =>
        obtain rfl := Option.some.inj hfirst
        exact .inr ⟨List.mem_cons_self, hname.symm⟩
      · exact .inl hfirst
    · exact .inr ⟨List.mem_cons_of_mem _ hrest, hname⟩

theorem stable_labelled : Stable Labelled where
  declare _ _ h := h
  define _ _ _ h := h
  rewrap _ _ h := h
  install := by
    intro r destination handlers source h other name op hop
    unfold installed Dispatch.get? at hop
    dsimp only at hop
    rw [Dispatch.operationsOf_install] at hop
    split at hop
    · next hother =>
      subst hother
      rcases get?_foldl_insert_cases hop with hbefore | ⟨hbatch, hname⟩
      · exact h other name op hbefore
      · obtain ⟨entry, -, rfl⟩ := List.mem_map.mp hbatch
        exact ⟨rfl, hname⟩
    · exact h other name op hop
  reset := by
    intro r _ destination name op hop
    exact absurd ((get?_empty destination name).symm.trans hop) (by simp)

/-! ## 2. Enough steps -/

/-- What a call answers when the script of its operation has ended. -/
def Ending.answer (destination name : String) : Ending → Except CallError Value
  | .returned (.ok value) => .ok value
  | .returned (.error fault) => .error (.invocation ⟨destination, name, fault⟩)
  | .panicked (some message) => .error (.invocation ⟨destination, name, .panicked message⟩)
  | .panicked none =>
    .error (.invocation ⟨destination, name, .panicked "non-string panic payload"⟩)

theorem Ending.answer_eq (destination name : String) (ending : Ending) :
    (attributed destination name ending.captured).mapError .invocation
      = ending.answer destination name := by
  rcases ending with (_ | _) | (_ | _) <;> rfl

section

variable {σ : Type} [Host (StateM σ)]
variable {r r' : Registry} {s s' : σ} {steps : Nat} {destination name : String}
  {receiver : Option Value} {arguments : List Value}

theorem labelled_of_reached {mode : Ledger.Mode} (h : Reached σ mode r) : r.Labelled :=
  stable_labelled.of_reached
    (fun _ _ destination name _ hop =>
      absurd ((get?_empty destination name).symm.trans hop) (by simp)) h

theorem invoke_of_none (h : r.dispatch.get? destination name = none) :
    (r.invoke steps destination name receiver arguments : StateM σ _).run s
      = ((some (.error (.unknownOperation destination name)), r), s) := by
  unfold invoke invokeWith
  rw [h]
  rfl

theorem invoke_of_refused {op : Operation} {fault : Fault}
    (hop : r.dispatch.get? destination name = some op)
    (hcheck : op.handler.signature.check arguments = .error fault) :
    (r.invoke steps destination name receiver arguments : StateM σ _).run s
      = ((some (.error (.invocation ⟨op.destination, op.name, fault⟩)), r), s) := by
  unfold invoke invokeWith attemptWith
  rw [hop]
  dsimp only
  rw [hcheck]
  rfl

theorem invoke_of_run {op : Operation} {ending : Option Ending}
    (hop : r.dispatch.get? destination name = some op)
    (hcheck : op.handler.signature.check arguments = .ok ())
    (hrun : (run steps (op.handler.body ⟨receiver, op.destination, op.name⟩ arguments) r
      : StateM σ _).run s = ((ending, r'), s')) :
    (r.invoke steps destination name receiver arguments : StateM σ _).run s
      = ((ending.map (Ending.answer op.destination op.name), r'), s') := by
  unfold invoke invokeWith attemptWith
  rw [hop]
  dsimp only
  rw [hcheck]
  simp only [run_bind, hrun]
  cases ending with
  | none => rfl
  | some ending => simp only [run_pure, Option.map_some, Ending.answer_eq]

/-- A call in a script that has an answer: the script goes on with it. -/
theorem run_invoke_of_answer {next : Except CallError Value → Script}
    {result : Except CallError Value}
    (h : (r.invoke steps destination name receiver arguments : StateM σ _).run s
      = ((some result, r'), s')) :
    (run (steps + 1) (.invoke destination name receiver arguments next) r : StateM σ _).run s
      = (run steps (next result) r' : StateM σ _).run s' := by
  have hwith : (invokeWith (run steps) destination name receiver arguments r
    : StateM σ _).run s = ((some result, r'), s') := h
  simp only [run, run_bind, hwith]

/-- If a script that begins with a call has ended, the call was answered. -/
theorem exists_answer_of_run_invoke {next : Except CallError Value → Script} {ending : Ending}
    (h : (run (steps + 1) (.invoke destination name receiver arguments next) r : StateM σ _).run s
      = ((some ending, r'), s')) :
    ∃ result r₁ s₁, (r.invoke steps destination name receiver arguments : StateM σ _).run s
        = ((some result, r₁), s₁) ∧
      (run steps (next result) r₁ : StateM σ _).run s₁ = ((some ending, r'), s') := by
  rcases hcall : (r.invoke steps destination name receiver arguments : StateM σ _).run s
    with ⟨⟨outcome, r₁⟩, s₁⟩
  cases outcome with
  | some result => exact ⟨result, r₁, s₁, rfl, run_invoke_of_answer hcall ▸ h⟩
  | none =>
    -- Out of steps within the call, the script would have stopped there.
    have hwith : (invokeWith (run steps) destination name receiver arguments r
      : StateM σ _).run s = ((none, r₁), s₁) := hcall
    simp only [run, run_bind, hwith, run_pure] at h
    exact absurd (Prod.mk.inj (Prod.mk.inj h).1).1 (by simp)

/-- If scripts that have ended end alike with one step more, a call that was answered is answered
alike. -/
theorem invoke_succ_of_run {result : Except CallError Value}
    (hrun : ∀ {script : Script} {ending : Ending} {r r' : Registry} {s s' : σ},
      (run steps script r : StateM σ _).run s = ((some ending, r'), s') →
        (run (steps + 1) script r : StateM σ _).run s = ((some ending, r'), s'))
    (h : (r.invoke steps destination name receiver arguments : StateM σ _).run s
      = ((some result, r'), s')) :
    (r.invoke (steps + 1) destination name receiver arguments : StateM σ _).run s
      = ((some result, r'), s') := by
  rcases invoke_cases h with
    ⟨hop, hresult, rfl, rfl⟩ | ⟨op, hop, ⟨_, hcheck, hresult, rfl, rfl⟩ | ⟨hcheck, ending, hbody, hresult⟩⟩
  · rw [invoke_of_none hop, hresult]
  · rw [invoke_of_refused hop hcheck, hresult]
  · -- The script has ended, for otherwise the call would have no answer.
    cases ending with
    | none => exact absurd hresult (by simp)
    | some ending =>
      rw [invoke_of_run hop hcheck (hrun hbody), hresult, Option.map_some, Option.map_some,
        Ending.answer_eq]

/-- The step lemma: one step more changes nothing about a run that has ended. -/
theorem run_succ_of_ended {script : Script} {ending : Ending}
    (h : (run steps script r : StateM σ _).run s = ((some ending, r'), s')) :
    (run (steps + 1) script r : StateM σ _).run s = ((some ending, r'), s') := by
  induction steps generalizing script r s ending r' s' with
  | zero =>
    obtain ⟨hnone, -⟩ := run_zero_eq h
    exact absurd hnone (by simp)
  | succ steps ih =>
    rcases run_succ_cases h with ⟨⟨outcome, rfl, hending⟩, rfl, rfl⟩ |
      ⟨⟨payload, rfl, hending⟩, rfl, rfl⟩ |
      ⟨_, _, _, _, _, rfl, ⟨-, hnone⟩ | ⟨_, _, _, hcall, hnext⟩⟩ |
      ⟨_, _, _, rfl, _, _, _, hreg, hnext⟩ | ⟨_, _, _, _, rfl, _, _, _, hreg, hnext⟩ |
      ⟨_, rfl, hnext⟩
    · rw [hending]
      rfl
    · rw [hending]
      rfl
    · exact absurd hnone (by simp)
    · rw [run_invoke_of_answer (invoke_succ_of_run ih hcall)]
      exact ih hnext
    · simp only [run, run_bind, hreg]
      exact ih hnext
    · simp only [run, run_bind, hreg]
      exact ih hnext
    · simp only [run]
      exact ih hnext

/-- **More steps change nothing.** A run that has ended ends alike with more steps. -/
theorem run_mono {script : Script} {ending : Ending} {more : Nat} (hle : steps ≤ more)
    (h : (run steps script r : StateM σ _).run s = ((some ending, r'), s')) :
    (run more script r : StateM σ _).run s = ((some ending, r'), s') := by
  induction hle with
  | refl => exact h
  | step _ ih => exact run_succ_of_ended ih

theorem invoke_mono {result : Except CallError Value} {more : Nat} (hle : steps ≤ more)
    (h : (r.invoke steps destination name receiver arguments : StateM σ _).run s
      = ((some result, r'), s')) :
    (r.invoke more destination name receiver arguments : StateM σ _).run s
      = ((some result, r'), s') := by
  induction hle with
  | refl => exact h
  | step _ ih => exact invoke_succ_of_run run_succ_of_ended ih

end

end Registry

section

variable {σ : Type} [Host (StateM σ)]

/-! ## 3. Answers -/

/-- A script comes to its end, whatever the number of steps that it takes. -/
def Script.Ends (script : Script) (start : Registry × σ) (ending : Registry.Ending)
    (finish : Registry × σ) : Prop :=
  ∃ steps, (Registry.run steps script start.1 : StateM σ _).run start.2
    = ((some ending, finish.1), finish.2)

/-- A call is answered, whatever the number of steps that it takes. -/
def Registry.Answers (destination name : String) (receiver : Option Value) (arguments : List Value)
    (start : Registry × σ) (result : Except CallError Value) (finish : Registry × σ) : Prop :=
  ∃ steps, (start.1.invoke steps destination name receiver arguments : StateM σ _).run start.2
    = ((some result, finish.1), finish.2)

variable {destination name : String} {receiver : Option Value} {arguments : List Value}
  {start finish finish' : Registry × σ}

/-- A call has one answer at most. -/
theorem Registry.Answers.unique {result result' : Except CallError Value}
    (h : Answers destination name receiver arguments start result finish)
    (h' : Answers destination name receiver arguments start result' finish') :
    result = result' ∧ finish = finish' := by
  obtain ⟨steps, hsteps⟩ := h
  obtain ⟨steps', hsteps'⟩ := h'
  -- Both are the answer of the longer of the two runs.
  have hmax := invoke_mono (Nat.le_max_left steps steps') hsteps
  rw [invoke_mono (Nat.le_max_right steps steps') hsteps'] at hmax
  obtain ⟨⟨hresult, hr⟩, hs⟩ := (Prod.mk.inj hmax).imp_left Prod.mk.inj
  exact ⟨(Option.some.inj hresult).symm, Prod.ext hr.symm hs.symm⟩

/-- Calls from within a script are answered like all others, and the script goes on with the answer,
be it a value, a fault or a panic of the operation that was called. -/
theorem Script.ends_invoke_iff {next : Except CallError Value → Script} {ending : Registry.Ending} :
    (Script.invoke destination name receiver arguments next).Ends start ending finish ↔
      ∃ result middle, Registry.Answers destination name receiver arguments start result middle ∧
        (next result).Ends middle ending finish := by
  constructor
  · rintro ⟨steps, hrun⟩
    cases steps with
    | zero =>
      obtain ⟨hnone, -⟩ := Registry.run_zero_eq hrun
      exact absurd hnone (by simp)
    | succ steps =>
      obtain ⟨result, r₁, s₁, hcall, hrest⟩ := Registry.exists_answer_of_run_invoke hrun
      exact ⟨result, (r₁, s₁), ⟨steps, hcall⟩, steps, hrest⟩
  · rintro ⟨result, middle, ⟨steps, hcall⟩, steps', hrest⟩
    -- The longer of the two runs has steps enough for the call and for the rest.
    refine ⟨max steps steps' + 1, ?_⟩
    rw [Registry.run_invoke_of_answer
      (Registry.invoke_mono (Nat.le_max_left steps steps') hcall)]
    exact Registry.run_mono (Nat.le_max_right steps steps') hrest

/-! ## 4. What a call leaves behind -/

/-- What changes the table and the ledger: a registration that succeeds, or a reset. -/
def Deed.Alters : Deed → Prop
  | .served (.register _ _) (.registered (.ok _)) => True
  | .served (.registerOperation _ _ _) (.registeredOperation (.ok _)) => True
  | .served .reset _ => True
  | _ => False

/-- Everything else leaves them alone. -/
theorem Moment.Faithful.kept {m : Moment σ} (h : m.Faithful) (hdeed : ¬ m.deed.Alters) :
    m.after.1.dispatch = m.before.1.dispatch ∧ m.after.1.ledger = m.before.1.ledger := by
  rcases h.cases with ⟨-, hsame⟩ | ⟨use, reply, hserved, hcall, hserve⟩
  · rw [hsame]
    exact ⟨rfl, rfl⟩
  · rw [hserved] at hdeed
    rcases Use.serve_cases hcall hserve with ⟨_, _, -, -, hafter⟩ | ⟨_, _, _, -, -, hafter⟩ |
      ⟨_, _, result, rfl, rfl, hreg⟩ | ⟨_, _, _, result, rfl, rfl, hreg⟩ |
      ⟨_, _, -, -, hafter⟩ | ⟨rfl, rfl, -⟩
    · rw [hafter]
      exact ⟨rfl, rfl⟩
    · rw [hafter]
      exact ⟨rfl, rfl⟩
    · -- A registration that fails may have changed the records in use, and no more than that.
      rcases Registry.register_cases hreg with ⟨_, -, -, hafter, -⟩ |
        ⟨-, _, _, _, _, -, ⟨_, -, -, -, hafter⟩ | ⟨_, -, rfl, -⟩⟩
      · rw [hafter]
        exact ⟨rfl, rfl⟩
      · rw [hafter]
        exact ⟨rfl, rfl⟩
      · exact absurd trivial hdeed
    · rcases Registry.registerOperation_cases hreg with ⟨_, -, -, hafter, -⟩ | ⟨-, rfl, -⟩
      · rw [hafter]
        exact ⟨rfl, rfl⟩
      · exact absurd trivial hdeed
    · rw [hafter]
      exact ⟨rfl, rfl⟩
    · exact absurd trivial hdeed

/-- A stretch without registrations that succeed and without resets leaves them alone. -/
theorem Chained.kept {ms : List (Moment σ)} (h : Chained start ms finish)
    (hfaithful : ∀ m ∈ ms, m.Faithful) (hdeeds : ∀ m ∈ ms, ¬ m.deed.Alters) :
    finish.1.dispatch = start.1.dispatch ∧ finish.1.ledger = start.1.ledger := by
  refine (h.keeps (P := fun r => r.dispatch = start.1.dispatch ∧ r.ledger = start.1.ledger)
    ?_ ⟨rfl, rfl⟩).1
  intro m hm hbefore
  obtain ⟨hdispatch, hledger⟩ := (hfaithful m hm).kept (hdeeds m hm)
  exact ⟨hdispatch.trans hbefore.1, hledger.trans hbefore.2⟩

/-! ## 5. Every call -/

namespace Registry

/-- How a call of a name is captured, attributed and resolved, in a registry and on a machine. -/
structure Captured (destination name : String) (receiver : Option Value) (arguments : List Value)
    (r : Registry) (s : σ) : Prop where
  /-- There is one answer at most; how many steps there are for it makes no difference. -/
  unique : ∀ result result' finish finish',
    Answers destination name receiver arguments (r, s) result finish →
    Answers destination name receiver arguments (r, s) result' finish' →
      result = result' ∧ finish = finish'
  /-- That an operation is unknown is the answer exactly if none is installed under the name, ... -/
  unknown_iff : (∃ otherDestination otherName finish,
      Answers destination name receiver arguments (r, s)
        (.error (.unknownOperation otherDestination otherName)) finish) ↔
    r.dispatch.contains destination name = false
  /-- ... it names what was called, and nothing is changed. -/
  unknown : r.dispatch.contains destination name = false →
    Answers destination name receiver arguments (r, s)
      (.error (.unknownOperation destination name)) (r, s)
  /-- If the installed operation refuses the arguments, the answer is its fault, under the name that
  was called, and its script does not run. -/
  refused : ∀ op fault, r.dispatch.get? destination name = some op →
    op.handler.signature.check arguments = .error fault →
      Answers destination name receiver arguments (r, s)
        (.error (.invocation ⟨destination, name, fault⟩)) (r, s)
  /-- Otherwise the script of the operation that is installed at the beginning runs, and the call is
  answered if and only if the script ends, with what it ends in. -/
  answered_iff : ∀ op, r.dispatch.get? destination name = some op →
    op.handler.signature.check arguments = .ok () → ∀ result finish,
      Answers destination name receiver arguments (r, s) result finish ↔
        ∃ ending, (op.handler.body ⟨receiver, destination, name⟩ arguments).Ends (r, s) ending finish ∧
          result = ending.answer destination name
  /-- What the call leaves behind, at its end or wherever else it stops, is what the requests of this
  one run of the script have led to, one after the other. -/
  left_behind : ∀ op, r.dispatch.get? destination name = some op →
    op.handler.signature.check arguments = .ok () → ∀ steps,
      let within :=
        (op.handler.body ⟨receiver, destination, name⟩ arguments).moments steps r s
      let finish := leaves
        ((r.invoke steps destination name receiver arguments : StateM σ _).run s)
      Chained (r, s) within finish ∧ (∀ m ∈ within, m.Faithful) ∧
        ((∀ m ∈ within, ¬ m.deed.Alters) →
          finish.1.dispatch = r.dispatch ∧ finish.1.ledger = r.ledger)
  /-- Made from within a script, the call is answered in the same way; the script is told the answer
  and goes on. -/
  nested : ∀ next ending finish,
    (Script.invoke destination name receiver arguments next).Ends (r, s) ending finish ↔
      ∃ result middle, Answers destination name receiver arguments (r, s) result middle ∧
        (next result).Ends middle ending finish

variable {r : Registry} {s : σ}

theorem answers_of_none (h : r.dispatch.get? destination name = none) :
    Answers destination name receiver arguments (r, s)
      (.error (.unknownOperation destination name)) (r, s) :=
  ⟨0, invoke_of_none h⟩

/-- An operation that is installed answers a call for itself, whatever it ends in. -/
theorem ne_unknown_of_answers {op : Operation} (hop : r.dispatch.get? destination name = some op)
    {result : Except CallError Value}
    (h : Answers destination name receiver arguments (r, s) result finish) :
    ∀ otherDestination otherName,
      result ≠ .error (.unknownOperation otherDestination otherName) := by
  rintro otherDestination otherName rfl
  obtain ⟨steps, hcall⟩ := h
  rcases invoke_cases hcall with
    ⟨hnone, -⟩ | ⟨_, -, ⟨_, -, hresult, -⟩ | ⟨-, ending, -, hresult⟩⟩
  · exact absurd (hop.symm.trans hnone) (by simp)
  · exact absurd hresult (by simp)
  · cases ending with
    | none => exact absurd hresult (by simp)
    | some ending =>
      rw [Option.map_some, Ending.answer_eq] at hresult
      rcases ending with (_ | _) | (_ | _) <;> exact absurd hresult (by simp [Ending.answer])

/-- A call of an operation that takes the arguments is answered if and only if its script ends. -/
theorem answers_iff {op : Operation} (hop : r.dispatch.get? destination name = some op)
    (hcheck : op.handler.signature.check arguments = .ok ()) {result : Except CallError Value} :
    Answers destination name receiver arguments (r, s) result finish ↔
      ∃ ending, (op.handler.body ⟨receiver, op.destination, op.name⟩ arguments).Ends (r, s) ending
          finish ∧ result = ending.answer op.destination op.name := by
  constructor
  · rintro ⟨steps, hcall⟩
    rcases hrun : (run steps (op.handler.body ⟨receiver, op.destination, op.name⟩ arguments) r
      : StateM σ _).run s with ⟨⟨ending, r'⟩, s'⟩
    rw [invoke_of_run hop hcheck hrun] at hcall
    obtain ⟨⟨hresult, rfl⟩, rfl⟩ := (Prod.mk.inj hcall).imp_left Prod.mk.inj
    obtain ⟨ending, rfl, rfl⟩ := Option.map_eq_some_iff.mp hresult
    exact ⟨ending, ⟨steps, hrun⟩, rfl⟩
  · rintro ⟨ending, ⟨steps, hrun⟩, rfl⟩
    exact ⟨steps, invoke_of_run hop hcheck hrun⟩

/-- A call of an operation that takes the arguments stops where its script stops. -/
theorem leaves_invoke {op : Operation} (hop : r.dispatch.get? destination name = some op)
    (hcheck : op.handler.signature.check arguments = .ok ()) (steps : Nat) :
    leaves ((r.invoke steps destination name receiver arguments : StateM σ _).run s)
      = leaves ((run steps (op.handler.body ⟨receiver, op.destination, op.name⟩ arguments) r
        : StateM σ _).run s) := by
  rcases hrun : (run steps (op.handler.body ⟨receiver, op.destination, op.name⟩ arguments) r
    : StateM σ _).run s with ⟨⟨ending, r'⟩, s'⟩
  rw [invoke_of_run hop hcheck hrun]
  rfl

/-- **A call is captured, attributed and resolved once.** In every registry that ever comes about, in
the middle of other calls as well, and whatever its operations do. -/
theorem invocation_captured {mode : Ledger.Mode} (h : Reached σ mode r) (destination name : String)
    (receiver : Option Value) (arguments : List Value) (s : σ) :
    Captured destination name receiver arguments r s := by
  have hlabelled := labelled_of_reached h
  have hnone : r.dispatch.contains destination name = false →
      r.dispatch.get? destination name = none :=
    fun hfree => Option.isNone_iff_eq_none.mp (Option.isSome_eq_false_iff.mp hfree)
  refine ⟨fun _ _ _ _ => Answers.unique, ?unknown_iff, fun hfree => answers_of_none (hnone hfree),
    ?refused, ?answered_iff, ?left_behind, fun _ _ _ => Script.ends_invoke_iff⟩
  case unknown_iff =>
    constructor
    · rintro ⟨otherDestination, otherName, finish, hanswer⟩
      by_contra hinstalled
      obtain ⟨op, hop⟩ := Option.isSome_iff_exists.mp (eq_true_of_ne_false hinstalled)
      exact ne_unknown_of_answers hop hanswer otherDestination otherName rfl
    · exact fun hfree => ⟨_, _, _, answers_of_none (hnone hfree)⟩
  case refused =>
    intro op fault hop hcheck
    obtain ⟨rfl, rfl⟩ := hlabelled destination name op hop
    exact ⟨0, invoke_of_refused hop hcheck⟩
  case answered_iff =>
    intro op hop hcheck result finish
    obtain ⟨rfl, rfl⟩ := hlabelled destination name op hop
    exact answers_iff hop hcheck
  case left_behind =>
    intro op hop hcheck steps
    obtain ⟨rfl, rfl⟩ := hlabelled destination name op hop
    have hchained := Script.chained_moments steps
      (op.handler.body ⟨receiver, op.destination, op.name⟩ arguments) r s
    rw [← leaves_invoke hop hcheck] at hchained
    have hfaithful := Script.faithful_moments steps
      (op.handler.body ⟨receiver, op.destination, op.name⟩ arguments) r s
    exact ⟨hchained, hfaithful, hchained.kept hfaithful⟩

end Registry

end

/-- A handler that replaces itself, resets the registry, installs something else and breaks off. -/
def Handler.moulting : Handler :=
  ⟨{}, none, fun call _ =>
    .registerOperation call.scope call.operation .idle fun _ =>
      .reset (.registerOperation call.scope "leaf" .idle fun _ => .panic (some "gone"))⟩

/-- A registry with one type and a moulting operation on it. -/
def Registry.cocoon : Registry :=
  (((ofManifest .empty ⟨none, .enabled⟩).declare "T" true).installed "T"
    [("moult", .moulting)] .handler).2

/-- The operation that is gone by the time it panics is still the one that the call has run, and
what it did before stays done. -/
theorem Registry.invocation_captured_cocoon :
    Reached World .enabled cocoon ∧
      ∃ finish : Registry × World,
        Answers "T" "moult" none [] (cocoon, World.fresh [] ⟨"tmp"⟩)
          (.error (.invocation ⟨"T", "moult", .panicked "gone"⟩)) finish ∧
        finish.1.dispatch.names "T" = ["leaf"] ∧
        finish.1.ledger.log.map Registration.name = ["leaf"] := by
  have hdeclared : Between World .enabled _ :=
    Between.used (.declare "T" true) 0 (World.fresh [] ⟨"tmp"⟩)
      (.new .empty none) rfl
  have hcocoon : Between World .enabled cocoon :=
    Between.used (.registerOperation "T" "moult" .moulting) 0 (World.fresh [] ⟨"tmp"⟩) hdeclared rfl
  have hreached : Reached World .enabled cocoon :=
    .during .reset (World.fresh [] ⟨"tmp"⟩) hcocoon (.before _ _ _)
  have hcaptured := invocation_captured hreached "T" "moult" none [] (World.fresh [] ⟨"tmp"⟩)
  have hends : (Handler.moulting.body ⟨none, "T", "moult"⟩ []).Ends
      (cocoon, World.fresh [] ⟨"tmp"⟩) (.panicked (some "gone")) (_, _) := ⟨4, rfl⟩
  exact ⟨hreached, _, (hcaptured.answered_iff _ rfl rfl _ _).mpr ⟨_, hends, rfl⟩, rfl, rfl⟩

end Graft
