/-
What marks can be asked, and what the steps of an answer can do.

Marks are asked four things, and every answer is put together from three steps: the set is taken from
memory or read from the file, the file is deleted, the file is written anew. What each of these comes to
is said once, for any machine and by what the machine did; nothing that is proved of answers has to look
into the steps again. None of them changes more of the marks than the set in memory.
-/
import Graft.Marks
import Graft.Proofs.Running

set_option autoImplicit false

namespace Graft.Marks

/-! ## 1. Requests and replies -/

/-- What marks can be asked to do. -/
inductive Request
  | isNew (fingerprint : String)
  | contains (mark : String)
  | forget (mark : String)
  | flush
  deriving DecidableEq

/-- What marks reply. -/
inductive Reply
  /-- Whether a fingerprint is new. This question always has an answer. -/
  | fresh (answer : Bool)
  /-- Whether a mark is recorded. -/
  | recorded (result : Except MarksError Bool)
  /-- How a change ended. -/
  | changed (result : Except MarksError Unit)

section

variable {m : Type → Type} [Monad m] [Host m]

/-- The reply to a request, and the marks after it. -/
def answer (marks : Marks) : Request → m (Reply × Marks)
  | .isNew fingerprint => do
    let (fresh, marks) ← marks.isNew fingerprint
    return (.fresh fresh, marks)
  | .contains mark => do
    let (result, marks) ← (Marks.contains mark).run.run marks
    return (.recorded result, marks)
  | .forget mark => do
    let (result, marks) ← (Marks.forget mark).run.run marks
    return (.changed result, marks)
  | .flush => do
    let (result, marks) ← Marks.flush.run.run marks
    return (.changed result, marks)

end

/-! ## 2. Steps -/

variable {σ : Type} [Host (StateM σ)] {marks marks' : Marks} {s s' : σ}

omit [Host (StateM σ)] in
theorem run_get_bind {α : Type} (f : Marks → Step (StateM σ) α) :
    (((get : Step (StateM σ) Marks) >>= f).run.run marks).run s
      = ((f marks).run.run marks).run s := rfl

omit [Host (StateM σ)] in
theorem run_modify_bind {α : Type} (f : Marks → Marks) (next : PUnit → Step (StateM σ) α) :
    (((modify f : Step (StateM σ) PUnit) >>= next).run.run marks).run s
      = ((next ⟨⟩).run.run (f marks)).run s := rfl

omit [Host (StateM σ)] in
theorem run_host_bind {α β : Type} (action : StateM σ α) (f : α → Step (StateM σ) β) :
    ((host action >>= f).run.run marks).run s
      = ((f (action.run s).1).run.run marks).run (action.run s).2 := rfl

/-- How deleting the file ends. The set in memory is empty afterwards in any case. -/
inductive Flushing (marks : Marks) (s : σ) : Except MarksError Unit → Marks → σ → Prop
  /-- The file is gone, or there was none. -/
  | cleared {removed : Except FileError Unit} {s' : σ}
      (run : (Host.removeFile marks.file : StateM σ _).run s = (removed, s'))
      (gone : removed = .ok () ∨ removed = .error .notFound) :
      Flushing marks s (.ok ()) { marks with seen := some .empty } s'
  | stuck {error : FileError} {s' : σ}
      (run : (Host.removeFile marks.file : StateM σ _).run s = (.error error, s'))
      (fault : error ≠ .notFound) :
      Flushing marks s (.error (.io marks.file error)) { marks with seen := some .empty } s'

theorem flushing_of_run {result : Except MarksError Unit}
    (h : ((flush : Step (StateM σ) Unit).run.run marks).run s = ((result, marks'), s')) :
    Flushing marks s result marks' s' := by
  rcases hremove : (Host.removeFile marks.file : StateM σ _).run s with ⟨removed, t⟩
  rw [flush, run_modify_bind, run_get_bind, run_host_bind, hremove] at h
  dsimp only at h
  split at h
  · obtain ⟨rfl, rfl, rfl⟩ := outcome_inj h
    exact .cleared hremove (.inl rfl)
  · obtain ⟨rfl, rfl, rfl⟩ := outcome_inj h
    exact .cleared hremove (.inr rfl)
  · next error fault =>
    obtain ⟨rfl, rfl, rfl⟩ := outcome_inj h
    exact .stuck hremove fault

/-- How the set is taken from memory or, when it is needed for the first time, from the file. -/
inductive Loading (marks : Marks) (s : σ) :
    Except MarksError (OrderedSet String) → Marks → σ → Prop
  | memory {seen : OrderedSet String} (seen_eq : marks.seen = some seen) :
      Loading marks s (.ok seen) marks s
  | missing {s' : σ} (unread : marks.seen = none)
      (read : (Host.readBytes marks.file : StateM σ _).run s = (.error .notFound, s')) :
      Loading marks s (.ok .empty) { marks with seen := some .empty } s'
  | unreadable {error : FileError} {s' : σ} (unread : marks.seen = none)
      (read : (Host.readBytes marks.file : StateM σ _).run s = (.error error, s'))
      (fault : error ≠ .notFound) :
      Loading marks s (.error (.io marks.file error)) marks s'
  | decoded {bytes : ByteArray} {values : List String} {s' : σ} (unread : marks.seen = none)
      (read : (Host.readBytes marks.file : StateM σ _).run s = (.ok bytes, s'))
      (decode : (Json.ofBytes? bytes : Option (List String)) = some values) :
      Loading marks s (.ok (.ofList values)) { marks with seen := some (.ofList values) } s'
  /-- The file holds no array of strings and is deleted. -/
  | discarded {bytes : ByteArray} {event : Event} {result : Except MarksError Unit} {t u s' : σ}
      {marks' : Marks} (unread : marks.seen = none)
      (read : (Host.readBytes marks.file : StateM σ _).run s = (.ok bytes, t))
      (garbled : (Json.ofBytes? bytes : Option (List String)) = none)
      (logged : (Host.log event : StateM σ _).run t = ((), u))
      (flushed : Flushing marks u result marks' s') :
      Loading marks s (result.map fun _ => .empty) marks' s'

theorem loading_of_run {result : Except MarksError (OrderedSet String)}
    (h : ((storage : Step (StateM σ) _).run.run marks).run s = ((result, marks'), s')) :
    Loading marks s result marks' s' := by
  rw [storage, run_get_bind] at h
  cases hseen : marks.seen with
  | some seen =>
    rw [hseen] at h
    obtain ⟨rfl, rfl, rfl⟩ := outcome_inj h
    exact .memory hseen
  | none =>
    rw [hseen] at h
    dsimp only at h
    rcases hload : ((hydrate : Step (StateM σ) _).run.run marks).run s with ⟨⟨loaded, marks₁⟩, s₁⟩
    have hhydrated := hload
    rw [run_bind_run, hload] at h
    rcases hread : (Host.readBytes marks.file : StateM σ _).run s with ⟨read, t⟩
    rw [hydrate, run_get_bind, run_host_bind, hread] at hhydrated
    dsimp only at hhydrated
    split at hhydrated
    · obtain ⟨rfl, rfl, rfl⟩ := outcome_inj hhydrated
      obtain ⟨rfl, rfl, rfl⟩ := outcome_inj h
      exact .missing hseen hread
    · next error fault =>
      obtain ⟨rfl, rfl, rfl⟩ := outcome_inj hhydrated
      obtain ⟨rfl, rfl, rfl⟩ := outcome_inj h
      exact .unreadable hseen hread fault
    · next bytes =>
      split at hhydrated
      · next values hdecode =>
        obtain ⟨rfl, rfl, rfl⟩ := outcome_inj hhydrated
        obtain ⟨rfl, rfl, rfl⟩ := outcome_inj h
        exact .decoded hseen hread hdecode
      · next hgarbled =>
        rcases hlog : (Host.log ⟨.warn, "discarding unreadable cache file",
          [("error", (MarksError.json marks.file).message)]⟩ : StateM σ Unit).run t with ⟨⟨⟩, u⟩
        have hwarn : (Host.warn "discarding unreadable cache file"
          [("error", (MarksError.json marks.file).message)] : StateM σ Unit).run t = ((), u) := hlog
        rcases hflush : ((flush : Step (StateM σ) Unit).run.run marks).run u with
          ⟨⟨flushed, marks₂⟩, s₂⟩
        have hdiscarded := flushing_of_run hflush
        rw [run_host_bind, hwarn, run_bind_run, hflush] at hhydrated
        cases flushed with
        | error error =>
          obtain ⟨rfl, rfl, rfl⟩ := outcome_inj hhydrated
          obtain ⟨rfl, rfl, rfl⟩ := outcome_inj h
          exact .discarded hseen hread hgarbled hlog hdiscarded
        | ok _ =>
          obtain ⟨rfl, rfl, rfl⟩ := outcome_inj hhydrated
          obtain ⟨rfl, rfl, rfl⟩ := outcome_inj h
          cases hdiscarded with
          | cleared hremove hgone =>
            exact .discarded hseen hread hgarbled hlog (.cleared hremove hgone)

/-- How the set in memory is written to the file. -/
inductive Writing (marks : Marks) (s : σ) : Except MarksError Unit → σ → Prop
  | blocked {error : FileError} {s' : σ}
      (made : (Host.createDirectories marks.file.directory : StateM σ _).run s
        = (.error error, s')) :
      Writing marks s (.error (.io marks.file error)) s'
  | failed {error : FileError} {t s' : σ}
      (made : (Host.createDirectories marks.file.directory : StateM σ _).run s = (.ok (), t))
      (placed : (Host.replaceFile marks.file (content (marks.seen.getD .empty)) : StateM σ _).run t
        = (.error error, s')) :
      Writing marks s (.error (.io marks.file error)) s'
  | written {t s' : σ}
      (made : (Host.createDirectories marks.file.directory : StateM σ _).run s = (.ok (), t))
      (placed : (Host.replaceFile marks.file (content (marks.seen.getD .empty)) : StateM σ _).run t
        = (.ok (), s')) :
      Writing marks s (.ok ()) s'

theorem writing_of_run {result : Except MarksError Unit}
    (h : ((persist : Step (StateM σ) Unit).run.run marks).run s = ((result, marks'), s')) :
    marks' = marks ∧ Writing marks s result s' := by
  rcases hmake : (Host.createDirectories marks.file.directory : StateM σ _).run s with ⟨made, t⟩
  rw [persist, run_get_bind, run_bind_run, guardIo, run_host_bind, hmake] at h
  cases made with
  | error error =>
    obtain ⟨rfl, rfl, rfl⟩ := outcome_inj h
    exact ⟨rfl, .blocked hmake⟩
  | ok _ =>
    rcases hplace : (Host.replaceFile marks.file (content (marks.seen.getD .empty)) :
      StateM σ _).run t with ⟨placed, u⟩
    change ((guardIo (Host.replaceFile marks.file (content (marks.seen.getD .empty))) :
      Step (StateM σ) Unit).run.run marks).run t = _ at h
    rw [guardIo, run_host_bind, hplace] at h
    cases placed with
    | error error =>
      obtain ⟨rfl, rfl, rfl⟩ := outcome_inj h
      exact ⟨rfl, .failed hmake hplace⟩
    | ok _ =>
      obtain ⟨rfl, rfl, rfl⟩ := outcome_inj h
      exact ⟨rfl, .written hmake hplace⟩

/-! ## 3. Answers -/

/-- The course of the question whether a fingerprint is new. -/
inductive Asking (marks : Marks) (fingerprint : String) (s : σ) : Bool → Marks → σ → Prop
  | unlocked {error : FileError} {event : Event} {t s' : σ}
      (read : (Host.readBytes marks.lockFile : StateM σ _).run s = (.error error, t))
      (logged : (Host.log event : StateM σ _).run t = ((), s')) :
      Asking marks fingerprint s true marks s'
  /-- A fault was met before. -/
  | degraded {bytes : ByteArray} {s' : σ}
      (read : (Host.readBytes marks.lockFile : StateM σ _).run s = (.ok bytes, s'))
      (fault : marks.degraded = true) :
      Asking marks fingerprint s true marks s'
  | checked {bytes : ByteArray} {fresh : Bool} {marks' : Marks} {t s' : σ}
      (read : (Host.readBytes marks.lockFile : StateM σ _).run s = (.ok bytes, t))
      (sound : marks.degraded = false)
      (run : ((check (Sha256.hexDigest bytes) fingerprint : Step (StateM σ) Bool).run.run marks).run t
        = ((.ok fresh, marks'), s')) :
      Asking marks fingerprint s fresh marks' s'
  /-- A fault is met now. -/
  | failed {bytes : ByteArray} {error : MarksError} {event : Event} {marks' : Marks} {t u s' : σ}
      (read : (Host.readBytes marks.lockFile : StateM σ _).run s = (.ok bytes, t))
      (sound : marks.degraded = false)
      (run : ((check (Sha256.hexDigest bytes) fingerprint : Step (StateM σ) Bool).run.run marks).run t
        = ((.error error, marks'), u))
      (logged : (Host.log event : StateM σ _).run u = ((), s')) :
      Asking marks fingerprint s true { marks' with degraded := true } s'

theorem asking_of_run {fingerprint : String} {fresh : Bool}
    (h : (marks.isNew fingerprint : StateM σ _).run s = ((fresh, marks'), s')) :
    Asking marks fingerprint s fresh marks' s' := by
  rcases hread : (Host.readBytes marks.lockFile : StateM σ _).run s with ⟨read, t⟩
  rw [isNew, run_bind, hread] at h
  cases read with
  | error error =>
    obtain ⟨rfl, rfl, rfl⟩ := outcome_inj h
    exact .unlocked hread rfl
  | ok bytes =>
    dsimp only at h
    split at h
    · next hfault =>
      obtain ⟨rfl, rfl, rfl⟩ := outcome_inj h
      exact .degraded hread hfault
    · next hsound =>
      rcases hcheck : ((check (Sha256.hexDigest bytes) fingerprint :
        Step (StateM σ) Bool).run.run marks).run t with ⟨⟨result, marks₁⟩, u⟩
      rw [run_bind, hcheck] at h
      cases result with
      | ok answer =>
        obtain ⟨rfl, rfl, rfl⟩ := outcome_inj h
        exact .checked hread (Bool.eq_false_iff.mpr hsound) hcheck
      | error error =>
        obtain ⟨rfl, rfl, rfl⟩ := outcome_inj h
        exact .failed hread (Bool.eq_false_iff.mpr hsound) hcheck rfl

/-- The course of a request. -/
inductive Answering (marks : Marks) (s : σ) : Request → Reply → Marks → σ → Prop
  | isNew {fingerprint : String} {fresh : Bool} {marks' : Marks} {s' : σ}
      (asking : Asking marks fingerprint s fresh marks' s') :
      Answering marks s (.isNew fingerprint) (.fresh fresh) marks' s'
  | contains {mark : String} {result : Except MarksError Bool} {marks' : Marks} {s' : σ}
      (run : ((contains mark : Step (StateM σ) Bool).run.run marks).run s
        = ((result, marks'), s')) :
      Answering marks s (.contains mark) (.recorded result) marks' s'
  | forget {mark : String} {result : Except MarksError Unit} {marks' : Marks} {s' : σ}
      (run : ((forget mark : Step (StateM σ) Unit).run.run marks).run s = ((result, marks'), s')) :
      Answering marks s (.forget mark) (.changed result) marks' s'
  | flush {result : Except MarksError Unit} {marks' : Marks} {s' : σ}
      (run : ((flush : Step (StateM σ) Unit).run.run marks).run s = ((result, marks'), s')) :
      Answering marks s .flush (.changed result) marks' s'

theorem answering_of_run {request : Request} {reply : Reply}
    (h : (marks.answer request : StateM σ _).run s = ((reply, marks'), s')) :
    Answering marks s request reply marks' s' := by
  cases request with
  | isNew fingerprint =>
    obtain ⟨rfl, rfl, rfl⟩ := outcome_inj h
    exact .isNew (asking_of_run rfl)
  | contains mark =>
    obtain ⟨rfl, rfl, rfl⟩ := outcome_inj h
    exact .contains rfl
  | forget mark =>
    obtain ⟨rfl, rfl, rfl⟩ := outcome_inj h
    exact .forget rfl
  | flush =>
    obtain ⟨rfl, rfl, rfl⟩ := outcome_inj h
    exact .flush rfl

end Graft.Marks
