/-
What happens while an application uses a registry, moment by moment.

A use of the registry that calls an operation is nested: the operation's script makes requests of its
own, and some of these are calls again. The record of a use lays all of this out flat, in the order in
which it happens: each request that is served at once, with its reply, and for each call when it is
entered and when it is left. So a statement about a whole run, nested calls and all, is a statement
about a list, and what one request keeps the run keeps (`Chained.keeps`).

The record is written down by functions of their own that follow the run. What makes it a record of
the run are three things: it leads from the state of the registry and of the machine at the beginning
to the one at the end without a gap, also where a script panics or runs out of steps (`Chained`); each
request in it is one that is served at once, with the reply and the change that the registry gives to
it (`Moment.Faithful`); and entering or leaving a call changes nothing. Between two uses others may do
to the machine whatever they like, and that is a moment as well. Every registry that a record shows
comes about in the sense of `Registry.Reached` (`Registry.reached_of_mem_course`).
-/
import Graft.Proofs.Reachable

set_option autoImplicit false

namespace Graft

/-! ## 1. Replies -/

/-- What the application is told by a registry. -/
inductive Reply
  /-- Nothing: the request cannot fail. -/
  | done
  | registered (result : Except RegisterError Nat)
  | registeredOperation (result : Except GateError Unit)
  /-- The result of a call, if it came to its end. -/
  | answered (outcome : Option (Except CallError Value))
  | flushed (result : Except WrapperError Nat)

/-- Whether the use came to its end. -/
def Reply.finished : Reply → Bool
  | .answered outcome => outcome.isSome
  | _ => true

/-- The registry and the machine that a request leaves. -/
def leaves {σ α : Type} (outcome : (α × Registry) × σ) : Registry × σ := (outcome.1.2, outcome.2)

section

variable {σ : Type}

/-! ## 2. Moments -/

/-- What can happen. -/
inductive Deed
  /-- A request other than a call is served. -/
  | served (use : Use) (reply : Reply)
  /-- A call begins. -/
  | entered (destination name : String) (receiver : Option Value) (arguments : List Value)
  /-- A call is over, or has run out of steps. -/
  | left (destination name : String) (outcome : Option (Except CallError Value))
  /-- Others have used the machine. -/
  | elapsed

/-- Something that happens, with the registry and the machine before and after it. -/
structure Moment (σ : Type) where
  deed : Deed
  before : Registry × σ
  after : Registry × σ

/-- A list of moments leads from one state to another, each beginning where the one before ended. -/
def Chained : Registry × σ → List (Moment σ) → Registry × σ → Prop
  | start, [], finish => start = finish
  | start, m :: rest, finish => m.before = start ∧ Chained m.after rest finish

@[simp] theorem chained_nil {start finish : Registry × σ} :
    Chained start [] finish ↔ start = finish := Iff.rfl

@[simp] theorem chained_cons {start finish : Registry × σ} {m : Moment σ}
    {rest : List (Moment σ)} :
    Chained start (m :: rest) finish ↔ m.before = start ∧ Chained m.after rest finish := Iff.rfl

theorem chained_append {start finish : Registry × σ} {first rest : List (Moment σ)} :
    Chained start (first ++ rest) finish ↔
      ∃ middle, Chained start first middle ∧ Chained middle rest finish := by
  induction first generalizing start with
  | nil => simp
  | cons m first ih => simp [ih, and_assoc]

/-- The run lemma: what each moment keeps holds at all of them and at the end. -/
theorem Chained.keeps {P : Registry → Prop} {start finish : Registry × σ} {ms : List (Moment σ)}
    (h : Chained start ms finish) (hstep : ∀ m ∈ ms, P m.before.1 → P m.after.1)
    (hstart : P start.1) : P finish.1 ∧ ∀ m ∈ ms, P m.before.1 ∧ P m.after.1 := by
  induction ms generalizing start with
  | nil =>
    obtain rfl := h
    exact ⟨hstart, fun _ hm => absurd hm List.not_mem_nil⟩
  | cons m rest ih =>
    obtain ⟨rfl, hrest⟩ := h
    have hafter := hstep m List.mem_cons_self hstart
    obtain ⟨hfinish, hall⟩ := ih hrest (fun m' hm' => hstep m' (List.mem_cons_of_mem _ hm')) hafter
    exact ⟨hfinish, List.forall_mem_cons.mpr ⟨⟨hstart, hafter⟩, hall⟩⟩

/-! ## 3. Requests -/

variable [Host (StateM σ)]

/-- Makes a use and gives the reply to it. -/
def Use.serve (steps : Nat) (use : Use) (r : Registry) : StateM σ (Reply × Registry) :=
  match use with
  | .declare name extensible => pure (.done, r.declare name extensible)
  | .define name kind make => pure (.done, r.define name kind make)
  | .register destination unit => do
    let (result, r) ← r.register destination unit
    return (.registered result, r)
  | .registerOperation destination name handler => do
    let (result, r) ← r.registerOperation destination name handler
    return (.registeredOperation result, r)
  | .invoke destination name receiver arguments => do
    let (outcome, r) ← r.invoke steps destination name receiver arguments
    return (.answered outcome, r)
  | .flushWrappers => do
    let (result, r) ← r.flushWrappers
    return (.flushed result, r)
  | .reset => pure (.done, r.reset)

/-- Making a use is making it and looking only at whether the reply is one. -/
theorem Use.perform_eq (steps : Nat) (use : Use) (r : Registry) :
    (use.perform steps r : StateM σ _) = do
      let (reply, r) ← use.serve steps r
      return (reply.finished, r) := by
  cases use <;> rfl

/-- A use that calls an operation. -/
def Use.IsCall : Use → Prop
  | .invoke _ _ _ _ => True
  | _ => False

/-- What a request that is not a call can be, with the reply to it and what becomes of the registry. -/
theorem Use.serve_cases {steps : Nat} {use : Use} {reply : Reply} {r r' : Registry} {s s' : σ}
    (hcall : ¬ use.IsCall)
    (h : (use.serve steps r : StateM σ _).run s = ((reply, r'), s')) :
    (∃ name extensible, use = .declare name extensible ∧ reply = .done ∧
        r' = r.declare name extensible) ∨
      (∃ name kind make, use = .define name kind make ∧ reply = .done ∧
        r' = r.define name kind make) ∨
      (∃ destination unit result, use = .register destination unit ∧
        reply = .registered result ∧
        (r.register destination unit : StateM σ _).run s = ((result, r'), s')) ∨
      (∃ destination name handler result, use = .registerOperation destination name handler ∧
        reply = .registeredOperation result ∧
        (r.registerOperation destination name handler : StateM σ _).run s
          = ((result, r'), s')) ∨
      (∃ result wrappers, use = .flushWrappers ∧ reply = .flushed result ∧
        r' = { r with wrappers := wrappers }) ∨
      (use = .reset ∧ reply = .done ∧ r' = r.reset) := by
  cases use with
  | declare name extensible =>
    simp only [serve, run_pure] at h
    obtain ⟨⟨rfl, rfl⟩, rfl⟩ := h
    exact .inl ⟨name, extensible, rfl, rfl, rfl⟩
  | define name kind make =>
    simp only [serve, run_pure] at h
    obtain ⟨⟨rfl, rfl⟩, rfl⟩ := h
    exact .inr (.inl ⟨name, kind, make, rfl, rfl, rfl⟩)
  | register destination unit =>
    simp only [serve, run_bind, run_pure] at h
    obtain ⟨⟨rfl, rfl⟩, rfl⟩ := h
    exact .inr (.inr (.inl ⟨destination, unit, _, rfl, rfl, rfl⟩))
  | registerOperation destination name handler =>
    simp only [serve, run_bind, run_pure] at h
    obtain ⟨⟨rfl, rfl⟩, rfl⟩ := h
    exact .inr (.inr (.inr (.inl ⟨destination, name, handler, _, rfl, rfl, rfl⟩)))
  | invoke => exact absurd trivial hcall
  | flushWrappers =>
    rcases hflush : (r.flushWrappers : StateM σ _).run s with ⟨⟨result, r₁⟩, s₁⟩
    simp only [serve, run_bind, run_pure, hflush] at h
    obtain ⟨⟨rfl, rfl⟩, rfl⟩ := h
    obtain ⟨wrappers, rfl⟩ := Registry.flushWrappers_cases hflush
    exact .inr (.inr (.inr (.inr (.inl ⟨result, wrappers, rfl, rfl, rfl⟩))))
  | reset =>
    simp only [serve, run_pure] at h
    obtain ⟨⟨rfl, rfl⟩, rfl⟩ := h
    exact .inr (.inr (.inr (.inr (.inr ⟨rfl, rfl, rfl⟩))))

/-- A moment as it comes about: a request is not a call and is answered as the registry answers it; a
call that begins or ends changes nothing; and others do not touch the registry. -/
def Moment.Faithful (m : Moment σ) : Prop :=
  match m.deed with
  | .served use reply => ¬ use.IsCall ∧
    (use.serve 0 m.before.1 : StateM σ _).run m.before.2 = ((reply, m.after.1), m.after.2)
  | .entered _ _ _ _ | .left _ _ _ => m.after = m.before
  | .elapsed => m.after.1 = m.before.1

/-- The registry stays as it is, or a request is served. -/
theorem Moment.Faithful.cases {m : Moment σ} (h : m.Faithful) :
    ((∀ use reply, m.deed ≠ .served use reply) ∧ m.after.1 = m.before.1) ∨
      ∃ use reply, m.deed = .served use reply ∧ ¬ use.IsCall ∧
        (use.serve 0 m.before.1 : StateM σ _).run m.before.2 = ((reply, m.after.1), m.after.2) := by
  unfold Moment.Faithful at h
  split at h
  · next use reply hdeed => exact .inr ⟨use, reply, hdeed, h⟩
  · next hdeed => exact .inl ⟨by simp [hdeed], congrArg Prod.fst h⟩
  · next hdeed => exact .inl ⟨by simp [hdeed], congrArg Prod.fst h⟩
  · next hdeed => exact .inl ⟨by simp [hdeed], h⟩

/-! ## 4. The record of a use -/

/-- The moment in which a request is served. -/
def Use.moment (use : Use) (r : Registry) (s : σ) : Moment σ :=
  let outcome := (use.serve 0 r : StateM σ _).run s
  ⟨.served use outcome.1.1, (r, s), leaves outcome⟩

theorem Use.faithful_moment {use : Use} (h : ¬ use.IsCall) (r : Registry) (s : σ) :
    (use.moment r s).Faithful := ⟨h, rfl⟩

namespace Registry

/-- The moments within a call, in between its beginning and its end: none if there is no operation or
if it refuses the arguments, and otherwise those of its script. -/
def innerMoments (inside : Script → Registry → σ → List (Moment σ)) (destination name : String)
    (receiver : Option Value) (arguments : List Value) (r : Registry) (s : σ) : List (Moment σ) :=
  match r.dispatch.get? destination name with
  | none => []
  | some op =>
    match op.handler.signature.check arguments with
    | .error _ => []
    | .ok () => inside (op.handler.body ⟨receiver, op.destination, op.name⟩ arguments) r s

/-- The moments of a call, given those of scripts. -/
def callMomentsWith (inside : Script → Registry → σ → List (Moment σ)) (steps : Nat)
    (destination name : String) (receiver : Option Value) (arguments : List Value) (r : Registry)
    (s : σ) : List (Moment σ) :=
  let outcome := (r.invoke steps destination name receiver arguments : StateM σ _).run s
  ⟨.entered destination name receiver arguments, (r, s), (r, s)⟩ ::
    (innerMoments inside destination name receiver arguments r s ++
      [⟨.left destination name outcome.1.1, leaves outcome, leaves outcome⟩])

end Registry

/-- The moments of a script that runs for at most the given number of steps. -/
def Script.moments : Nat → Script → Registry → σ → List (Moment σ)
  | 0, _, _, _ => []
  | _ + 1, .done _, _, _ => []
  | _ + 1, .panic _, _, _ => []
  | steps + 1, .invoke destination name receiver arguments next, r, s =>
    let outcome := (r.invoke steps destination name receiver arguments : StateM σ _).run s
    Registry.callMomentsWith (moments steps) steps destination name receiver arguments r s ++
      match outcome.1.1 with
      | some result => moments steps (next result) outcome.1.2 outcome.2
      | none => []
  | steps + 1, .register destination unit next, r, s =>
    let outcome := (r.register destination unit : StateM σ _).run s
    (Use.register destination unit).moment r s ::
      moments steps (next outcome.1.1) outcome.1.2 outcome.2
  | steps + 1, .registerOperation destination name handler next, r, s =>
    let outcome := (r.registerOperation destination name handler : StateM σ _).run s
    (Use.registerOperation destination name handler).moment r s ::
      moments steps (next outcome.1.1) outcome.1.2 outcome.2
  | steps + 1, .reset next, r, s => Use.reset.moment r s :: moments steps next r.reset s

/-- The moments of a use. -/
def Use.moments (steps : Nat) (use : Use) (r : Registry) (s : σ) : List (Moment σ) :=
  match use with
  | .invoke destination name receiver arguments =>
    Registry.callMomentsWith (Script.moments steps) steps destination name receiver arguments r s
  | use => [use.moment r s]

/-! ## 5. The record tells what happened -/

/-- A call leads where its script leads, and nowhere if none runs. -/
theorem Registry.chained_callMomentsWith {inside : Script → Registry → σ → List (Moment σ)}
    {steps : Nat} (hinside : ∀ script r s,
      Chained (r, s) (inside script r s) (leaves ((run steps script r : StateM σ _).run s)))
    (destination name : String) (receiver : Option Value) (arguments : List Value) (r : Registry)
    (s : σ) :
    Chained (r, s) (callMomentsWith inside steps destination name receiver arguments r s)
      (leaves ((r.invoke steps destination name receiver arguments : StateM σ _).run s)) := by
  rcases hcall : (r.invoke steps destination name receiver arguments : StateM σ _).run s
    with ⟨⟨outcome, r'⟩, s'⟩
  have hinner : Chained (r, s) (innerMoments inside destination name receiver arguments r s)
      (r', s') := by
    unfold innerMoments
    rcases invoke_cases hcall with
      ⟨hop, -, rfl, rfl⟩ | ⟨op, hop, ⟨_, hcheck, -, rfl, rfl⟩ | ⟨hcheck, ending, hrun, -⟩⟩
    · rw [hop]
      rfl
    · rw [hop]
      dsimp only
      rw [hcheck]
      rfl
    · rw [hop]
      dsimp only
      rw [hcheck]
      have hbody := hinside (op.handler.body ⟨receiver, op.destination, op.name⟩ arguments) r s
      rwa [hrun] at hbody
  unfold callMomentsWith
  rw [hcall]
  exact ⟨rfl, chained_append.mpr ⟨(r', s'), hinner, rfl, rfl⟩⟩

/-- The record of a run has no gaps. The induction is on the number of steps, as every call inside of
a run is a shorter run. -/
theorem Script.chained_moments (steps : Nat) (script : Script) (r : Registry) (s : σ) :
    Chained (r, s) (script.moments steps r s)
      (leaves ((Registry.run steps script r : StateM σ _).run s)) := by
  induction steps generalizing script r s with
  | zero => exact rfl
  | succ steps ih =>
    cases script with
    | done outcome => exact rfl
    | panic payload => exact rfl
    | invoke destination name receiver arguments next =>
      have hcall := Registry.chained_callMomentsWith ih destination name receiver arguments r s
      rcases houtcome : (r.invoke steps destination name receiver arguments : StateM σ _).run s
        with ⟨⟨outcome, r₁⟩, s₁⟩
      have hwith : (Registry.invokeWith (Registry.run steps) destination name receiver arguments r
        : StateM σ _).run s = ((outcome, r₁), s₁) := houtcome
      rw [houtcome] at hcall
      unfold moments
      rw [houtcome]
      simp only [Registry.run, run_bind, hwith]
      refine chained_append.mpr ⟨_, hcall, ?_⟩
      cases outcome with
      | none => exact rfl
      | some result => exact ih (next result) r₁ s₁
    | register destination unit next => exact ⟨rfl, ih _ _ _⟩
    | registerOperation destination name handler next => exact ⟨rfl, ih _ _ _⟩
    | reset next => exact ⟨rfl, ih _ _ _⟩

theorem Registry.faithful_callMomentsWith {inside : Script → Registry → σ → List (Moment σ)}
    (hinside : ∀ script r s, ∀ m ∈ inside script r s, m.Faithful) (steps : Nat)
    (destination name : String) (receiver : Option Value) (arguments : List Value) (r : Registry)
    (s : σ) : ∀ m ∈ callMomentsWith inside steps destination name receiver arguments r s,
      m.Faithful := by
  have hinner : ∀ m ∈ innerMoments inside destination name receiver arguments r s,
      m.Faithful := by
    unfold innerMoments
    split
    · exact fun _ hm => absurd hm List.not_mem_nil
    · split
      · exact fun _ hm => absurd hm List.not_mem_nil
      · exact hinside _ r s
  intro m hm
  rcases List.mem_cons.mp hm with rfl | hm
  · exact rfl
  · rcases List.mem_append.mp hm with hm | hm
    · exact hinner m hm
    · obtain rfl := List.mem_singleton.mp hm
      exact rfl

/-- What the record of a run says of a request is what the registry does with it. -/
theorem Script.faithful_moments (steps : Nat) (script : Script) (r : Registry) (s : σ) :
    ∀ m ∈ script.moments steps r s, m.Faithful := by
  induction steps generalizing script r s with
  | zero => exact fun _ hm => absurd hm List.not_mem_nil
  | succ steps ih =>
    cases script with
    | done outcome => exact fun _ hm => absurd hm List.not_mem_nil
    | panic payload => exact fun _ hm => absurd hm List.not_mem_nil
    | invoke destination name receiver arguments next =>
      intro m hm
      rcases List.mem_append.mp hm with hm | hm
      · exact Registry.faithful_callMomentsWith ih steps destination name receiver arguments r s m
          hm
      · split at hm
        · exact ih _ _ _ m hm
        · exact absurd hm List.not_mem_nil
    | register destination unit next =>
      exact List.forall_mem_cons.mpr ⟨Use.faithful_moment id r s, ih _ _ _⟩
    | registerOperation destination name handler next =>
      exact List.forall_mem_cons.mpr ⟨Use.faithful_moment id r s, ih _ _ _⟩
    | reset next => exact List.forall_mem_cons.mpr ⟨Use.faithful_moment id r s, ih _ _ _⟩

theorem Use.chained_moments (steps : Nat) (use : Use) (r : Registry) (s : σ) :
    Chained (r, s) (use.moments steps r s) (leaves ((use.serve steps r : StateM σ _).run s)) := by
  cases use with
  | invoke destination name receiver arguments =>
    exact Registry.chained_callMomentsWith (Script.chained_moments steps) destination name receiver
      arguments r s
  | _ => exact ⟨rfl, rfl⟩

theorem Use.faithful_moments (steps : Nat) (use : Use) (r : Registry) (s : σ) :
    ∀ m ∈ use.moments steps r s, m.Faithful := by
  cases use with
  | invoke destination name receiver arguments =>
    exact Registry.faithful_callMomentsWith (Script.faithful_moments steps) steps destination name
      receiver arguments r s
  | _ => exact List.forall_mem_singleton.mpr (Use.faithful_moment id r s)

/-! ## 6. The record of an application -/

/-- A use with the time before it: what others do to the machine meanwhile, and for how many steps
the use may run. -/
structure Turn (σ : Type) where
  meanwhile : σ → σ
  steps : Nat
  use : Use

namespace Registry

/-- What happens in a sequence of turns. A use that has not come to its end is the last one. -/
def course : List (Turn σ) → Registry → σ → List (Moment σ)
  | [], _, _ => []
  | turn :: rest, r, s =>
    let now := turn.meanwhile s
    let outcome := (turn.use.serve turn.steps r : StateM σ _).run now
    ⟨.elapsed, (r, s), (r, now)⟩ :: (turn.use.moments turn.steps r now ++
      if outcome.1.1.finished then course rest outcome.1.2 outcome.2 else [])

/-- The record of an application has no gaps. -/
theorem chained_course (turns : List (Turn σ)) (r : Registry) (s : σ) :
    ∃ finish, Chained (r, s) (course turns r s) finish := by
  induction turns generalizing r s with
  | nil => exact ⟨(r, s), rfl⟩
  | cons turn rest ih =>
    have huse := turn.use.chained_moments turn.steps r (turn.meanwhile s)
    unfold course
    dsimp only
    split
    · obtain ⟨finish, hfinish⟩ := ih _ _
      exact ⟨finish, rfl, chained_append.mpr ⟨_, huse, hfinish⟩⟩
    · exact ⟨_, rfl, chained_append.mpr ⟨_, huse, rfl⟩⟩

theorem faithful_course (turns : List (Turn σ)) (r : Registry) (s : σ) :
    ∀ m ∈ course turns r s, m.Faithful := by
  induction turns generalizing r s with
  | nil => exact fun _ hm => absurd hm List.not_mem_nil
  | cons turn rest ih =>
    intro m hm
    rcases List.mem_cons.mp hm with rfl | hm
    · exact rfl
    · rcases List.mem_append.mp hm with hm | hm
      · exact turn.use.faithful_moments _ _ _ m hm
      · split at hm
        · exact ih _ _ m hm
        · exact absurd hm List.not_mem_nil

end Registry

/-! ## 7. What is recorded comes about -/

/-- What holds when a call begins, at the moments of its script and where it stops holds at all of its
moments. -/
theorem Registry.forall_mem_callMoments {P : Registry → σ → Prop}
    {inside : Script → Registry → σ → List (Moment σ)} {steps : Nat} {destination name : String}
    {receiver : Option Value} {arguments : List Value} {r r' : Registry} {s s' : σ}
    {outcome : Option (Except CallError Value)}
    (hcall : (r.invoke steps destination name receiver arguments : StateM σ _).run s
      = ((outcome, r'), s'))
    (hbegin : P r s)
    (hinside : ∀ op, r.dispatch.get? destination name = some op →
      op.handler.signature.check arguments = .ok () →
        ∀ m ∈ inside (op.handler.body ⟨receiver, op.destination, op.name⟩ arguments) r s,
          P m.before.1 m.before.2 ∧ P m.after.1 m.after.2)
    (hend : P r' s') :
    ∀ m ∈ callMomentsWith inside steps destination name receiver arguments r s,
      P m.before.1 m.before.2 ∧ P m.after.1 m.after.2 := by
  intro m hm
  unfold callMomentsWith at hm
  rw [hcall] at hm
  rcases List.mem_cons.mp hm with rfl | hm
  · exact ⟨hbegin, hbegin⟩
  rcases List.mem_append.mp hm with hm | hm
  · unfold innerMoments at hm
    split at hm
    · exact absurd hm List.not_mem_nil
    · next op hop =>
      split at hm
      · exact absurd hm List.not_mem_nil
      · next hcheck => exact hinside op hop hcheck m hm
  · obtain rfl := List.mem_singleton.mp hm
    exact ⟨hend, hend⟩

/-- A script passes through what its record shows. -/
theorem Script.passes_of_mem_moments {steps : Nat} {script : Script} {r : Registry} {s : σ} :
    ∀ m ∈ script.moments steps r s, Passes script r s m.before.1 m.before.2 ∧
      Passes script r s m.after.1 m.after.2 := by
  induction steps generalizing script r s with
  | zero => exact fun _ hm => absurd hm List.not_mem_nil
  | succ steps ih =>
    cases script with
    | done outcome => exact fun _ hm => absurd hm List.not_mem_nil
    | panic payload => exact fun _ hm => absurd hm List.not_mem_nil
    | invoke destination name receiver arguments next =>
      rcases hcall : (r.invoke steps destination name receiver arguments : StateM σ _).run s
        with ⟨⟨outcome, r₁⟩, s₁⟩
      have hend : Passes (.invoke destination name receiver arguments next) r s r₁ s₁ := by
        cases outcome with
        | some result => exact .invoked hcall (.here _ _ _)
        | none =>
          rcases Registry.invoke_cases hcall with
            ⟨-, hnone, -⟩ | ⟨op, hop, ⟨_, -, hnone, -⟩ | ⟨hcheck, _, hrun, -⟩⟩
          · exact absurd hnone (by simp)
          · exact absurd hnone (by simp)
          · exact .within hop hcheck (passes_of_run hrun)
      intro m hm
      unfold moments at hm
      rw [hcall] at hm
      rcases List.mem_append.mp hm with hm | hm
      · exact Registry.forall_mem_callMoments hcall (.here _ _ _)
          (fun op hop hcheck m hm =>
            ⟨.within hop hcheck (ih m hm).1, .within hop hcheck (ih m hm).2⟩) hend m hm
      · cases outcome with
        | none => exact absurd hm List.not_mem_nil
        | some result => exact ⟨.invoked hcall (ih m hm).1, .invoked hcall (ih m hm).2⟩
    | register destination unit next =>
      intro m hm
      rcases List.mem_cons.mp hm with rfl | hm
      · exact ⟨.here _ _ _, .registered rfl (.here _ _ _)⟩
      · exact ⟨.registered rfl (ih m hm).1, .registered rfl (ih m hm).2⟩
    | registerOperation destination name handler next =>
      intro m hm
      rcases List.mem_cons.mp hm with rfl | hm
      · exact ⟨.here _ _ _, .registeredOperation rfl (.here _ _ _)⟩
      · exact ⟨.registeredOperation rfl (ih m hm).1, .registeredOperation rfl (ih m hm).2⟩
    | reset next =>
      intro m hm
      rcases List.mem_cons.mp hm with rfl | hm
      · exact ⟨.here _ _ _, .reset (.here _ _ _)⟩
      · exact ⟨.reset (ih m hm).1, .reset (ih m hm).2⟩

theorem Use.perform_of_serve (steps : Nat) {use : Use} {reply : Reply} {r r' : Registry} {s s' : σ}
    (h : (use.serve steps r : StateM σ _).run s = ((reply, r'), s')) :
    (use.perform steps r : StateM σ _).run s = ((reply.finished, r'), s') := by
  rw [perform_eq, run_bind, h]
  rfl

/-- A use passes through what its record shows. -/
theorem Use.passes_of_mem_moments {steps : Nat} {use : Use} {r : Registry} {s : σ} :
    ∀ m ∈ use.moments steps r s, Passes use r s m.before.1 m.before.2 ∧
      Passes use r s m.after.1 m.after.2 := by
  cases use with
  | invoke destination name receiver arguments =>
    rcases hcall : (r.invoke steps destination name receiver arguments : StateM σ _).run s
      with ⟨⟨outcome, r₁⟩, s₁⟩
    have hserve : ((Use.invoke destination name receiver arguments).serve steps r
        : StateM σ _).run s = ((.answered outcome, r₁), s₁) := by
      simp only [serve, run_bind, hcall, run_pure]
    refine Registry.forall_mem_callMoments hcall (.before _ _ _) (fun op hop hcheck m hm => ?_)
      (.after (perform_of_serve steps hserve))
    exact ⟨.within hop hcheck (Script.passes_of_mem_moments m hm).1,
      .within hop hcheck (Script.passes_of_mem_moments m hm).2⟩
  | _ => exact List.forall_mem_singleton.mpr ⟨.before _ _ _, .after (perform_of_serve 0 rfl)⟩

/-- Every registry that is seen in the course of an application is one that comes about. -/
theorem Registry.reached_of_mem_course {mode : Ledger.Mode} {r : Registry}
    (h : Between σ mode r) (turns : List (Turn σ)) (s : σ) :
    ∀ m ∈ course turns r s, Reached σ mode m.before.1 ∧ Reached σ mode m.after.1 := by
  induction turns generalizing r s with
  | nil => exact fun _ hm => absurd hm List.not_mem_nil
  | cons turn rest ih =>
    rcases hserve : (turn.use.serve turn.steps r : StateM σ _).run (turn.meanwhile s)
      with ⟨⟨reply, r₁⟩, s₁⟩
    have hperform := Use.perform_of_serve turn.steps hserve
    intro m hm
    unfold course at hm
    dsimp only at hm
    rw [hserve] at hm
    rcases List.mem_cons.mp hm with rfl | hm
    · exact ⟨.during turn.use s h (.before _ _ _), .during turn.use s h (.before _ _ _)⟩
    rcases List.mem_append.mp hm with hm | hm
    · have hpasses := Use.passes_of_mem_moments m hm
      exact ⟨.during turn.use _ h hpasses.1, .during turn.use _ h hpasses.2⟩
    · split at hm
      · next hfinished =>
        rw [show reply.finished = true from hfinished] at hperform
        exact ih (.used turn.use turn.steps (turn.meanwhile s) h hperform) s₁ m hm
      · exact absurd hm List.not_mem_nil

end

end Graft
