/-
Machines that keep a record of how files are used.

Every machine can be made to note what is read, removed, made and replaced on it, and what came of it.
A program cannot see the record: it returns what it would have returned, the machine below ends in the
same state, and what is noted does not depend on what was noted before. This is shown of everything
that marks do, so that it can be told from the notes whether an answer has met a fault.
-/
import Graft.Proofs.MarksSteps

set_option autoImplicit false

namespace Graft

/-! ## 1. The record -/

/-- A use of a file, with what came of it. -/
inductive Access
  | read (path : Path) (result : Except FileError ByteArray)
  | removed (path : Path) (result : Except FileError Unit)
  /-- A directory was made, with the missing ones above it. -/
  | created (directory : Path) (result : Except FileError Unit)
  | replaced (path : Path) (content : ByteArray) (result : Except FileError Unit)

/-- A machine and the uses of its files, latest first. -/
structure Recorded (σ : Type) where
  state : σ
  accesses : List Access

namespace Recorded

variable {σ α β : Type}

/-- Nothing is noted. -/
def silently (x : StateM σ α) : StateM (Recorded σ) α := fun r =>
  ((x.run r.state).1, { r with state := (x.run r.state).2 })

/-- What is returned is noted. -/
def noting (note : α → Access) (x : StateM σ α) : StateM (Recorded σ) α := fun r =>
  ((x.run r.state).1, ⟨(x.run r.state).2, note (x.run r.state).1 :: r.accesses⟩)

variable [Host (StateM σ)]

/-- The uses that marks make of files are noted, and no others. -/
instance : Host (StateM (Recorded σ)) where
  readBytes path := noting (.read path) (Host.readBytes path)
  present path := silently (Host.present path)
  isFile path := silently (Host.isFile path)
  list path := silently (Host.list path)
  createDirectories path := noting (.created path) (Host.createDirectories path)
  createFile path content := silently (Host.createFile path content)
  replaceFile path content := noting (.replaced path content) (Host.replaceFile path content)
  writeFile path content := silently (Host.writeFile path content)
  removeFile path := noting (.removed path) (Host.removeFile path)
  temporaryDirectory := silently Host.temporaryDirectory
  currentDirectory := silently Host.currentDirectory
  log event := silently (Host.log event)

variable {r r' : Recorded σ} {path : Path} {content : ByteArray}

theorem accesses_readBytes {result : Except FileError ByteArray}
    (h : (Host.readBytes path : StateM (Recorded σ) _).run r = (result, r')) :
    r'.accesses = .read path result :: r.accesses := by
  obtain ⟨rfl, rfl⟩ := Prod.mk.inj h
  rfl

theorem accesses_removeFile {result : Except FileError Unit}
    (h : (Host.removeFile path : StateM (Recorded σ) _).run r = (result, r')) :
    r'.accesses = .removed path result :: r.accesses := by
  obtain ⟨rfl, rfl⟩ := Prod.mk.inj h
  rfl

theorem accesses_createDirectories {result : Except FileError Unit}
    (h : (Host.createDirectories path : StateM (Recorded σ) _).run r = (result, r')) :
    r'.accesses = .created path result :: r.accesses := by
  obtain ⟨rfl, rfl⟩ := Prod.mk.inj h
  rfl

theorem accesses_replaceFile {result : Except FileError Unit}
    (h : (Host.replaceFile path content : StateM (Recorded σ) _).run r = (result, r')) :
    r'.accesses = .replaced path content result :: r.accesses := by
  obtain ⟨rfl, rfl⟩ := Prod.mk.inj h
  rfl

theorem accesses_log {event : Event}
    (h : (Host.log event : StateM (Recorded σ) _).run r = ((), r')) : r'.accesses = r.accesses := by
  obtain ⟨-, rfl⟩ := Prod.mk.inj h
  rfl

/-! ## 2. Programs on a machine with a record -/

omit [Host (StateM σ)] in
variable (σ) in
/-- The second program does on a machine with a record what the first one does without it; what it adds
to the record does not depend on the record. -/
def Follows (x : StateM σ α) (y : StateM (Recorded σ) α) : Prop :=
  ∀ s, ∃ accesses, ∀ record,
    y.run ⟨s, record⟩ = ((x.run s).1, ⟨(x.run s).2, accesses ++ record⟩)

omit [Host (StateM σ)]

theorem follows_silently (x : StateM σ α) : Follows σ x (silently x) := by
  intro s
  exact ⟨[], fun record => rfl⟩

theorem follows_noting (note : α → Access) (x : StateM σ α) : Follows σ x (noting note x) := by
  intro s
  exact ⟨[note (x.run s).1], fun record => rfl⟩

theorem Follows.pure (a : α) : Follows σ (pure a) (pure a) := by
  intro s
  exact ⟨[], fun record => rfl⟩

theorem Follows.bind {x : StateM σ α} {y : StateM (Recorded σ) α} {f : α → StateM σ β}
    {g : α → StateM (Recorded σ) β} (hx : Follows σ x y) (hf : ∀ a, Follows σ (f a) (g a)) :
    Follows σ (x >>= f) (y >>= g) := by
  intro s
  obtain ⟨first, hfirst⟩ := hx s
  obtain ⟨second, hsecond⟩ := hf (x.run s).1 (x.run s).2
  refine ⟨second ++ first, fun record => ?_⟩
  rw [run_bind, run_bind, hfirst, hsecond, List.append_assoc]

/-- A run with a record starts as well with an empty one. -/
theorem Follows.run_nil {x : StateM σ α} {y : StateM (Recorded σ) α} (h : Follows σ x y) {s : σ}
    {record : List Access} {a : α} {r' : Recorded σ} (hrun : y.run ⟨s, record⟩ = (a, r')) :
    ∃ accesses, y.run ⟨s, []⟩ = (a, ⟨r'.state, accesses⟩) ∧ r'.accesses = accesses ++ record := by
  obtain ⟨accesses, hall⟩ := h s
  have hempty := hall []
  rw [hall record] at hrun
  obtain ⟨rfl, rfl⟩ := Prod.mk.inj hrun
  rw [List.append_nil] at hempty
  exact ⟨accesses, hempty, rfl⟩

end Recorded

/-! ## 3. Marks on a machine with a record -/

namespace Marks

open Recorded (Follows follows_silently follows_noting)

variable {σ α β : Type}

variable (σ) in
/-- The same of steps that change marks and may fail. -/
def Traces (x : Step (StateM σ) α) (y : Step (StateM (Recorded σ)) α) : Prop :=
  ∀ marks, Follows σ (x.run.run marks) (y.run.run marks)

theorem Traces.pure (a : α) : Traces σ (pure a) (pure a) := by
  intro marks
  exact Follows.pure ((.ok a : Except MarksError α), marks)

theorem Traces.throw (error : MarksError) :
    Traces σ (throw error : Step (StateM σ) α) (throw error) := by
  intro marks
  exact Follows.pure ((.error error : Except MarksError α), marks)

theorem Traces.get : Traces σ (get : Step (StateM σ) Marks) get := by
  intro marks
  exact Follows.pure ((.ok marks : Except MarksError Marks), marks)

theorem Traces.modify (f : Marks → Marks) :
    Traces σ (modify f : Step (StateM σ) PUnit) (modify f) := by
  intro marks
  exact Follows.pure ((.ok ⟨⟩ : Except MarksError PUnit), f marks)

theorem Traces.host {x : StateM σ α} {y : StateM (Recorded σ) α} (h : Follows σ x y) :
    Traces σ (host x) (host y) := by
  intro marks s
  obtain ⟨accesses, hall⟩ := h s
  refine ⟨accesses, fun record => ?_⟩
  have hrun : ((Marks.host y : Step _ _).run.run marks).run ⟨s, record⟩
      = ((.ok (y.run ⟨s, record⟩).1, marks), (y.run ⟨s, record⟩).2) := rfl
  rw [hrun, hall]
  rfl

theorem Traces.bind {x : Step (StateM σ) α} {y : Step (StateM (Recorded σ)) α}
    {f : α → Step (StateM σ) β} {g : α → Step (StateM (Recorded σ)) β} (hx : Traces σ x y)
    (hf : ∀ a, Traces σ (f a) (g a)) : Traces σ (x >>= f) (y >>= g) := by
  intro marks
  rw [ExceptT.run_bind, ExceptT.run_bind, StateT.run_bind, StateT.run_bind]
  refine (hx marks).bind fun outcome => ?_
  obtain ⟨result, marks'⟩ := outcome
  cases result with
  | error error => exact Follows.pure ((.error error : Except MarksError β), marks')
  | ok a => exact hf a marks'

theorem traces_guardIo {x : StateM σ (Except FileError α)}
    {y : StateM (Recorded σ) (Except FileError α)} (h : Follows σ x y) :
    Traces σ (guardIo x) (guardIo y) := by
  refine (Traces.host h).bind fun result => ?_
  cases result with
  | ok value => exact Traces.pure value
  | error error => exact Traces.get.bind fun _ => Traces.throw _

variable [Host (StateM σ)]

theorem traces_flush : Traces σ flush flush := by
  refine (Traces.modify _).bind fun _ => Traces.get.bind fun marks => ?_
  refine (Traces.host (follows_noting _ _)).bind fun removed => ?_
  cases removed with
  | ok _ => exact Traces.pure ()
  | error error =>
    cases error with
    | notFound => exact Traces.pure ()
    | _ => exact Traces.get.bind fun _ => Traces.throw _

theorem traces_hydrate : Traces σ hydrate hydrate := by
  refine Traces.get.bind fun marks => ?_
  refine (Traces.host (follows_noting _ _)).bind fun read => ?_
  cases read with
  | error error =>
    cases error with
    | notFound => exact Traces.pure _
    | _ => exact Traces.throw _
  | ok bytes =>
    dsimp only
    split
    · exact Traces.pure _
    · refine (Traces.host (follows_silently _)).bind fun _ => ?_
      exact traces_flush.bind fun _ => Traces.pure _

theorem traces_storage : Traces σ storage storage := by
  refine Traces.get.bind fun marks => ?_
  cases marks.seen with
  | some seen => exact Traces.pure seen
  | none =>
    refine traces_hydrate.bind fun seen => ?_
    exact (Traces.modify _).bind fun _ => Traces.pure seen

theorem traces_persist : Traces σ persist persist := by
  refine Traces.get.bind fun marks => ?_
  refine (traces_guardIo (follows_noting _ _)).bind fun _ => ?_
  exact traces_guardIo (follows_noting _ _)

theorem traces_synchronize (mark : String) : Traces σ (synchronize mark) (synchronize mark) := by
  refine traces_storage.bind fun seen => ?_
  exact (Traces.modify _).bind fun _ => traces_persist

theorem traces_contains (mark : String) : Traces σ (contains mark) (contains mark) :=
  traces_storage.bind fun _ => Traces.pure _

theorem traces_forget (mark : String) : Traces σ (forget mark) (forget mark) := by
  refine traces_storage.bind fun seen => ?_
  split
  · exact (Traces.modify _).bind fun _ => traces_persist
  · exact Traces.pure _

theorem traces_check (indicator fingerprint : String) :
    Traces σ (check indicator fingerprint) (check indicator fingerprint) := by
  -- The second half of a check is the same whether or not the marks were flushed before.
  have hask : Traces σ (do
      if (← storage).contains fingerprint then return false
      synchronize fingerprint
      return true) (do
      if (← storage).contains fingerprint then return false
      synchronize fingerprint
      return true) := by
    refine traces_storage.bind fun seen => ?_
    split
    · exact Traces.pure _
    · exact (traces_synchronize fingerprint).bind fun _ => Traces.pure _
  refine traces_storage.bind fun seen => ?_
  simp only
  split
  · refine (Traces.host (follows_silently _)).bind fun _ => ?_
    exact traces_flush.bind fun _ => (traces_synchronize indicator).bind fun _ => hask
  · exact hask

theorem follows_isNew (marks : Marks) (fingerprint : String) :
    Follows σ (marks.isNew fingerprint) (marks.isNew fingerprint) := by
  refine (follows_noting _ _).bind fun read => ?_
  cases read with
  | error error => exact (follows_silently _).bind fun _ => Follows.pure _
  | ok bytes =>
    dsimp only
    split
    · exact Follows.pure _
    · refine (traces_check _ _ marks).bind fun outcome => ?_
      obtain ⟨result, marks'⟩ := outcome
      cases result with
      | ok fresh => exact Follows.pure _
      | error error => exact (follows_silently _).bind fun _ => Follows.pure _

/-- **A record changes no answer**, and it is told the same whatever was noted before. -/
theorem follows_answer (marks : Marks) (request : Request) :
    Follows σ (marks.answer request) (marks.answer request) := by
  cases request with
  | isNew fingerprint => exact (follows_isNew marks fingerprint).bind fun _ => Follows.pure _
  | contains mark => exact (traces_contains mark marks).bind fun _ => Follows.pure _
  | forget mark => exact (traces_forget mark marks).bind fun _ => Follows.pure _
  | flush => exact (traces_flush marks).bind fun _ => Follows.pure _

end Marks

end Graft
