/-
What marks have seen since the lock file last changed.

One set holds fingerprints and digests of the lock file alike; questions extend it and throw it away,
and marks are taken back one by one. What the set says of a fingerprint under a lock can be told from
the history alone: it was asked for under this lock, and since then no question has met another lock,
nothing was flushed, and neither the fingerprint nor the digest of the lock was taken back.

The invariant is about fingerprints and digests that cannot be mistaken for each other: at most one
digest is in the set, and a fingerprint is in it together with a digest exactly if the history says so.
The main statement is `Marks.isNew_eq_false_iff`.
-/
import Graft.Marks
import Graft.Proofs.Running
import Graft.World

set_option autoImplicit false

namespace Graft

namespace Marks

/-! ## 1. Steps that end well -/

/-- Marks with their files that have met no fault. -/
structure Sane (file lockFile : Path) (marks : Marks) : Prop where
  file_eq : marks.file = file
  lockFile_eq : marks.lockFile = lockFile
  sound : marks.degraded = false

/-- Marks whose set is in memory. -/
structure Loaded (file lockFile : Path) (seen : OrderedSet String) (marks : Marks) (_ : World) :
    Prop extends Sane file lockFile marks where
  seen_eq : marks.seen = some seen

/-- Marks that were not used yet, over a file that is not there. -/
structure Unread (file lockFile : Path) (seen : OrderedSet String) (marks : Marks) (w : World) :
    Prop extends Sane file lockFile marks where
  seen_eq : marks.seen = none
  empty : seen = .empty
  missing : w.tree.readBytes w.cwd file = .error .notFound

/-- Marks that hold a set: the one in memory, or the empty one before the first use. -/
def Image (file lockFile : Path) (seen : OrderedSet String) (marks : Marks) (w : World) : Prop :=
  Loaded file lockFile seen marks w ∨ Unread file lockFile seen marks w

variable {file lockFile : Path} {seen : OrderedSet String} {marks marks' : Marks} {w w' : World}

theorem Image.sane (h : Image file lockFile seen marks w) : Sane file lockFile marks :=
  h.elim Loaded.toSane Unread.toSane

theorem yields_get : Yields (Loaded file lockFile seen) (get : Step (StateM World) Marks)
    fun _ => Loaded file lockFile seen :=
  Yields.get fun _ _ h => h

/-- Using the machine leaves marks in memory alone. -/
theorem yields_host {α : Type} (action : StateM World α) :
    Yields (Loaded file lockFile seen) (host action) fun _ => Loaded file lockFile seen :=
  Yields.lift fun _ _ _ _ h _ => ⟨h.toSane, h.seen_eq⟩

theorem yields_guardIo {α : Type} (action : StateM World (Except FileError α)) :
    Yields (Loaded file lockFile seen) (guardIo action) fun _ => Loaded file lockFile seen := by
  refine Yields.bind (yields_host action) fun result => ?_
  cases result with
  | ok value => exact Yields.pure fun _ _ h => h
  | error error => exact Yields.bind yields_get fun _ => Yields.throw _

theorem yields_flush : Yields (fun marks _ => Sane file lockFile marks) flush
    fun _ => Loaded file lockFile .empty := by
  have hempty : Yields (fun marks (_ : World) => Sane file lockFile marks)
      (modify fun marks => { marks with seen := some .empty } : Step (StateM World) PUnit)
      fun _ => Loaded file lockFile .empty :=
    Yields.modify fun _ _ h => ⟨⟨h.file_eq, h.lockFile_eq, h.sound⟩, rfl⟩
  refine Yields.bind hempty fun _ => ?_
  refine Yields.bind yields_get fun _ => ?_
  refine Yields.bind (yields_host _) fun removed => ?_
  split
  · exact Yields.pure fun _ _ h => h
  · exact Yields.pure fun _ _ h => h
  · exact Yields.bind yields_get fun _ => Yields.throw _

/-- A file that is not there holds no marks. -/
theorem yields_hydrate : Yields (Unread file lockFile seen) hydrate
    fun found marks _ => found = seen ∧ Sane file lockFile marks := by
  have hget : Yields (Unread file lockFile seen) (get : Step (StateM World) Marks)
      fun asked marks w => asked.file = file ∧ Unread file lockFile seen marks w :=
    Yields.get fun _ _ h => ⟨h.file_eq, h⟩
  refine Yields.bind hget fun asked => ?_
  have hread : Yields (fun marks w => asked.file = file ∧ Unread file lockFile seen marks w)
      (host (Host.readBytes asked.file))
      fun read marks _ => read = .error .notFound ∧ seen = .empty ∧ Sane file lockFile marks := by
    refine Yields.lift fun marks w read w' h hrun => ⟨?_, h.2.empty, h.2.toSane⟩
    rw [← h.2.missing, ← h.1]
    exact (congrArg Prod.fst hrun).symm
  refine Yields.bind hread fun read => ?_
  intro marks w found marks' w' h hrun
  obtain ⟨rfl, rfl, hsane⟩ := h
  obtain ⟨⟨hfound, rfl⟩, rfl⟩ := (Prod.mk.inj hrun).imp_left Prod.mk.inj
  exact ⟨(Except.ok.inj hfound).symm, hsane⟩

/-- The set is read when it is first needed, and then it is in memory. -/
theorem yields_storage : Yields (Image file lockFile seen) storage
    fun found marks w => found = seen ∧ Loaded file lockFile seen marks w := by
  have hget : Yields (Image file lockFile seen) (get : Step (StateM World) Marks)
      fun asked marks w => asked = marks ∧ Image file lockFile seen marks w :=
    Yields.get fun _ _ h => ⟨rfl, h⟩
  refine Yields.bind hget fun asked => ?_
  cases hasked : asked.seen with
  | some found =>
    refine Yields.pure fun marks w h => ?_
    obtain ⟨rfl, hloaded | hunread⟩ := h
    · exact ⟨Option.some.inj (hasked.symm.trans hloaded.seen_eq), hloaded⟩
    · exact absurd (hasked.symm.trans hunread.seen_eq) (by simp)
  | none =>
    have hhydrate : Yields (fun marks w => asked = marks ∧ Image file lockFile seen marks w)
        hydrate fun found marks _ => found = seen ∧ Sane file lockFile marks := by
      refine yields_hydrate.mono fun marks w h => ?_
      obtain ⟨rfl, hloaded | hunread⟩ := h
      · exact absurd (hasked.symm.trans hloaded.seen_eq) (by simp)
      · exact hunread
    refine Yields.bind hhydrate fun found => ?_
    have hkeep : Yields (fun marks (_ : World) => found = seen ∧ Sane file lockFile marks)
        (modify fun marks => { marks with seen := some found } : Step (StateM World) PUnit)
        fun _ marks w => found = seen ∧ Loaded file lockFile seen marks w := by
      refine Yields.modify fun marks w h => ?_
      obtain ⟨rfl, hsane⟩ := h
      exact ⟨rfl, ⟨hsane.file_eq, hsane.lockFile_eq, hsane.sound⟩, rfl⟩
    exact Yields.bind hkeep fun _ => Yields.pure fun _ _ h => h

theorem yields_persist :
    Yields (Loaded file lockFile seen) persist fun _ => Loaded file lockFile seen := by
  refine Yields.bind yields_get fun marks => ?_
  refine Yields.bind (yields_guardIo _) fun _ => ?_
  exact yields_guardIo _

/-- The set in memory is exchanged and written. -/
theorem yields_exchange (seen' : OrderedSet String) :
    Yields (Loaded file lockFile seen)
      (do
        modify fun marks => { marks with seen := some seen' }
        persist)
      fun _ => Loaded file lockFile seen' := by
  have hset : Yields (Loaded file lockFile seen)
      (modify fun marks => { marks with seen := some seen' } : Step (StateM World) PUnit)
      fun _ => Loaded file lockFile seen' :=
    Yields.modify fun _ _ h => ⟨⟨h.file_eq, h.lockFile_eq, h.sound⟩, rfl⟩
  exact Yields.bind hset fun _ => yields_persist

theorem yields_synchronize (mark : String) : Yields (Loaded file lockFile seen) (synchronize mark)
    fun _ => Loaded file lockFile (seen.insert mark) := by
  refine Yields.bind (yields_storage.mono fun _ _ => .inl) fun found => ?_
  intro marks w _ marks' w' h hrun
  obtain ⟨rfl, hloaded⟩ := h
  exact yields_exchange _ hloaded hrun

theorem yields_contains (mark : String) : Yields (Image file lockFile seen) (contains mark)
    fun _ => Loaded file lockFile seen := by
  refine Yields.bind yields_storage fun found => ?_
  exact Yields.pure fun _ _ h => h.2

theorem yields_forget (mark : String) : Yields (Image file lockFile seen) (forget mark)
    fun _ => Loaded file lockFile (seen.erase mark) := by
  refine Yields.bind yields_storage fun found => ?_
  intro marks w _ marks' w' h hrun
  obtain ⟨rfl, hloaded⟩ := h
  split at hrun
  · exact yields_exchange _ hloaded hrun
  · next hout =>
    -- A mark that is not there is not taken back, which leaves the set as taking it back would.
    obtain ⟨⟨-, rfl⟩, rfl⟩ := (Prod.mk.inj hrun).imp_left Prod.mk.inj
    rw [OrderedSet.erase_of_not_mem fun hin => hout (decide_eq_true hin)]
    exact hloaded

/-- The set under a lock: what was there if it holds the digest of the lock, or else the digest
alone. -/
def underLock (seen : OrderedSet String) (lock : String) : OrderedSet String :=
  if lock ∈ seen then seen else OrderedSet.empty.insert lock

/-- A check leaves the set under the lock with the fingerprint added, and the fingerprint is not new
exactly if it was there already. -/
theorem yields_check (lock fingerprint : String) :
    Yields (Image file lockFile seen) (check lock fingerprint)
      fun fresh marks w => (fresh = false ↔ fingerprint ∈ underLock seen lock) ∧
        Loaded file lockFile ((underLock seen lock).insert fingerprint) marks w := by
  -- The second half of a check, for any set.
  have hask (seen : OrderedSet String) : Yields (Loaded file lockFile seen) (do
      if (← storage).contains fingerprint then return false
      synchronize fingerprint
      return true)
      fun fresh marks w => (fresh = false ↔ fingerprint ∈ seen) ∧
        Loaded file lockFile (seen.insert fingerprint) marks w := by
    refine Yields.bind (yields_storage.mono fun _ _ => .inl) fun found => ?_
    intro marks w fresh marks' w' h hrun
    obtain ⟨rfl, hloaded⟩ := h
    split at hrun
    · next hin =>
      have hin : fingerprint ∈ found := of_decide_eq_true hin
      obtain ⟨⟨hfresh, rfl⟩, rfl⟩ := (Prod.mk.inj hrun).imp_left Prod.mk.inj
      obtain rfl := Except.ok.inj hfresh
      rw [OrderedSet.insert_of_mem hin]
      exact ⟨⟨fun _ => hin, fun _ => rfl⟩, hloaded⟩
    · next hout =>
      have hout : fingerprint ∉ found := fun hin => hout (decide_eq_true hin)
      obtain ⟨_, marks₁, w₁, hsync, hrun⟩ := run_bind_run_eq_ok hrun
      obtain ⟨⟨hfresh, rfl⟩, rfl⟩ := (Prod.mk.inj hrun).imp_left Prod.mk.inj
      obtain rfl := Except.ok.inj hfresh
      exact ⟨⟨fun hfresh => absurd hfresh (by simp), fun hin => absurd hin hout⟩,
        yields_synchronize fingerprint hloaded hsync⟩
  refine Yields.bind yields_storage fun found => ?_
  intro marks w fresh marks' w' h hrun
  obtain ⟨rfl, hloaded⟩ := h
  unfold underLock
  simp only at hrun
  split at hrun
  · next hout =>
    -- Another lock than before: the set is thrown away and starts again with its digest.
    have hout : lock ∉ found := by simpa [OrderedSet.contains] using hout
    rw [if_neg hout]
    obtain ⟨_, marks₁, w₁, hlog, hrun⟩ := run_bind_run_eq_ok hrun
    have hlogged := yields_host _ hloaded hlog
    obtain ⟨_, marks₂, w₂, hflush, hrun⟩ := run_bind_run_eq_ok hrun
    have hflushed := yields_flush hlogged.toSane hflush
    obtain ⟨_, marks₃, w₃, hsync, hrun⟩ := run_bind_run_eq_ok hrun
    exact hask _ (yields_synchronize lock hflushed hsync) hrun
  · next hin =>
    have hin : lock ∈ found := by simpa [OrderedSet.contains] using hin
    rw [if_pos hin]
    exact hask _ hloaded hrun

/-- The digest of the lock file, if it can be read. -/
def lockDigest? (lockFile : Path) (w : World) : Option String :=
  match w.tree.readBytes w.cwd lockFile with
  | .ok bytes => some (Sha256.hexDigest bytes)
  | .error _ => none

/-- What a question without a fault does: nothing if the lock file cannot be read, and otherwise a
check under its digest. -/
theorem isNew_outcome {fingerprint : String} {fresh : Bool}
    (h : Image file lockFile seen marks w)
    (hrun : (marks.isNew fingerprint : StateM World _).run w = ((fresh, marks'), w'))
    (hsound : marks'.degraded = false) :
    (lockDigest? lockFile w = none ∧ fresh = true ∧ Image file lockFile seen marks' w') ∨
      ∃ lock, lockDigest? lockFile w = some lock ∧
        (fresh = false ↔ fingerprint ∈ underLock seen lock) ∧
        Loaded file lockFile ((underLock seen lock).insert fingerprint) marks' w' := by
  have hread : (Host.readBytes marks.lockFile : StateM World _).run w
      = (w.tree.readBytes w.cwd lockFile, w) := by
    rw [h.sane.lockFile_eq]
    rfl
  rw [isNew, run_bind, hread] at hrun
  unfold lockDigest?
  simp only at hrun
  cases hlock : w.tree.readBytes w.cwd lockFile with
  | error error =>
    rw [hlock] at hrun
    obtain ⟨⟨rfl, rfl⟩, rfl⟩ := (Prod.mk.inj hrun).imp_left Prod.mk.inj
    exact .inl ⟨rfl, rfl, h.imp (fun h => ⟨h.toSane, h.seen_eq⟩) fun h =>
      ⟨h.toSane, h.seen_eq, h.empty, h.missing⟩⟩
  | ok bytes =>
    rw [hlock] at hrun
    simp only [h.sane.sound, Bool.false_eq_true, if_false] at hrun
    rw [run_bind] at hrun
    rcases hcheck : ((check (Sha256.hexDigest bytes) fingerprint :
      Step (StateM World) Bool).run.run marks).run w with ⟨⟨result, marks₁⟩, w₁⟩
    rw [hcheck] at hrun
    cases result with
    | ok answer =>
      obtain ⟨⟨rfl, rfl⟩, rfl⟩ := (Prod.mk.inj hrun).imp_left Prod.mk.inj
      exact .inr ⟨_, rfl, yields_check _ _ h hcheck⟩
    | error error =>
      -- A fault would be noted, and there was none.
      obtain ⟨⟨-, rfl⟩, -⟩ := (Prod.mk.inj hrun).imp_left Prod.mk.inj
      exact absurd hsound (by simp)

/-! ## 2. Histories -/

/-- What happened to marks. Whether one is recorded may be asked at any time and changes nothing. -/
inductive Change
  /-- It was asked whether a fingerprint is new, under a lock file with this digest, if it could be
  read. -/
  | asked (fingerprint : String) (lock : Option String)
  | forgot (mark : String)
  | flushed

/-- What a fingerprint that was seen under a lock outlives: questions under this lock or under none
that can be read, and that other marks are taken back. -/
def Change.Spares (fingerprint lock : String) : Change → Prop
  | .asked _ seen => ∀ other, seen = some other → other = lock
  | .forgot mark => mark ≠ fingerprint ∧ mark ≠ lock
  | .flushed => False

/-- A fingerprint was asked for under a lock, and everything since then has spared it. The latest
change of a history comes first. -/
def Known (history : List Change) (fingerprint lock : String) : Prop :=
  ∃ later earlier, history = later ++ .asked fingerprint (some lock) :: earlier ∧
    ∀ change ∈ later, change.Spares fingerprint lock

variable {history : List Change} {change : Change} {fingerprint lock : String}

theorem not_known_nil : ¬ Known [] fingerprint lock := by
  rintro ⟨later, earlier, h, -⟩
  exact absurd h (by simp)

theorem known_cons_iff : Known (change :: history) fingerprint lock ↔
    change = .asked fingerprint (some lock) ∨
      (change.Spares fingerprint lock ∧ Known history fingerprint lock) := by
  constructor
  · rintro ⟨later, earlier, h, hspared⟩
    cases later with
    | nil => exact .inl (List.cons.inj h).1
    | cons first rest =>
      obtain ⟨rfl, rfl⟩ := List.cons.inj h
      obtain ⟨hfirst, hrest⟩ := List.forall_mem_cons.mp hspared
      exact .inr ⟨hfirst, rest, earlier, rfl, hrest⟩
  · rintro (rfl | ⟨hfirst, rest, earlier, rfl, hrest⟩)
    · exact ⟨[], history, rfl, fun _ hin => absurd hin List.not_mem_nil⟩
    · exact ⟨change :: rest, earlier, rfl, List.forall_mem_cons.mpr ⟨hfirst, hrest⟩⟩

/-- The fingerprints that were asked for. -/
def fingerprints (history : List Change) : List String :=
  history.filterMap fun
    | .asked fingerprint _ => some fingerprint
    | _ => none

/-- The digests of the lock file that questions have met. -/
def locks (history : List Change) : List String :=
  history.filterMap fun
    | .asked _ lock => lock
    | _ => none

@[simp] theorem fingerprints_nil : fingerprints [] = [] := rfl

@[simp] theorem locks_nil : locks [] = [] := rfl

@[simp] theorem fingerprints_asked (lock : Option String) :
    fingerprints (.asked fingerprint lock :: history) = fingerprint :: fingerprints history := rfl

@[simp] theorem fingerprints_forgot (mark : String) :
    fingerprints (.forgot mark :: history) = fingerprints history := rfl

@[simp] theorem fingerprints_flushed :
    fingerprints (.flushed :: history) = fingerprints history := rfl

@[simp] theorem locks_asked_none :
    locks (.asked fingerprint none :: history) = locks history := rfl

@[simp] theorem locks_asked_some :
    locks (.asked fingerprint (some lock) :: history) = lock :: locks history := rfl

@[simp] theorem locks_forgot (mark : String) : locks (.forgot mark :: history) = locks history := rfl

@[simp] theorem locks_flushed : locks (.flushed :: history) = locks history := rfl

/-- No fingerprint that was asked for is the digest of a lock file that was met. -/
def Distinct (history : List Change) : Prop :=
  ∀ fingerprint ∈ fingerprints history, fingerprint ∉ locks history

theorem Distinct.of_cons (h : Distinct (change :: history)) : Distinct history := by
  intro fingerprint hin hlock
  cases change with
  | asked other lock =>
    refine h fingerprint (List.mem_cons_of_mem _ hin) ?_
    cases lock with
    | none => exact hlock
    | some lock => exact List.mem_cons_of_mem _ hlock
  | forgot mark => exact h fingerprint hin hlock
  | flushed => exact h fingerprint hin hlock

/-! ## 3. What a set says of a history -/

/-- A set of marks tells of every fingerprint and every digest what the history tells. -/
structure Reflects (history : List Change) (seen : OrderedSet String) : Prop where
  origin : ∀ mark ∈ seen, mark ∈ fingerprints history ∨ mark ∈ locks history
  /-- At most one digest is recorded. -/
  one : ∀ lock ∈ locks history, ∀ other ∈ locks history, lock ∈ seen → other ∈ seen → lock = other
  known : ∀ fingerprint lock, fingerprint ∉ locks history → lock ∉ fingerprints history →
    (lock ∈ seen ∧ fingerprint ∈ seen ↔ Known history fingerprint lock)

theorem reflects_nil : Reflects [] .empty where
  origin _ h := absurd h (OrderedSet.not_mem_empty _)
  one _ h := absurd h List.not_mem_nil
  known _ _ _ _ :=
    ⟨fun h => absurd h.1 (OrderedSet.not_mem_empty _), fun h => absurd h not_known_nil⟩

theorem Reflects.unreadable (h : Reflects history seen) (fingerprint : String) :
    Reflects (.asked fingerprint none :: history) seen where
  origin mark hmark := (h.origin mark hmark).imp_left (List.mem_cons_of_mem _)
  one := h.one
  known other lock hother hlock := by
    rw [known_cons_iff, h.known other lock hother fun hin => hlock (List.mem_cons_of_mem _ hin)]
    simp [Change.Spares]

theorem Reflects.forgot (h : Reflects history seen) (mark : String) :
    Reflects (.forgot mark :: history) (seen.erase mark) where
  origin other hother := h.origin other ((OrderedSet.mem_erase ..).mp hother).1
  one lock hlock other hother hin hin' := h.one lock hlock other hother
    ((OrderedSet.mem_erase ..).mp hin).1 ((OrderedSet.mem_erase ..).mp hin').1
  known fingerprint lock hfingerprint hlock := by
    rw [known_cons_iff, ← h.known fingerprint lock hfingerprint hlock]
    simp only [OrderedSet.mem_erase, Change.Spares]
    constructor
    · rintro ⟨⟨hlock, hne⟩, hfingerprint, hne'⟩
      exact .inr ⟨⟨Ne.symm hne', Ne.symm hne⟩, hlock, hfingerprint⟩
    · rintro (habsurd | ⟨⟨hne', hne⟩, hlock, hfingerprint⟩)
      · exact absurd habsurd (by simp)
      · exact ⟨⟨hlock, Ne.symm hne⟩, hfingerprint, Ne.symm hne'⟩

theorem reflects_flushed (history : List Change) : Reflects (.flushed :: history) .empty where
  origin _ h := absurd h (OrderedSet.not_mem_empty _)
  one _ _ _ _ h := absurd h (OrderedSet.not_mem_empty _)
  known _ _ _ _ := by
    rw [known_cons_iff]
    simp [Change.Spares]

theorem mem_underLock_iff {mark : String} :
    mark ∈ underLock seen lock ↔ (lock ∈ seen ∧ mark ∈ seen) ∨ (lock ∉ seen ∧ mark = lock) := by
  unfold underLock
  split
  · next hin => simp [hin]
  · next hout => simp [hout]

/-- **The answer of a set is the answer of the history**: a fingerprint is in the set under a lock
exactly if it is known under it. -/
theorem Reflects.mem_underLock_iff_known (h : Reflects history seen)
    (hdistinct : Distinct (.asked fingerprint (some lock) :: history)) :
    fingerprint ∈ underLock seen lock ↔ Known history fingerprint lock := by
  have hfingerprint : fingerprint ∉ lock :: locks history := hdistinct _ List.mem_cons_self
  rw [List.mem_cons, not_or] at hfingerprint
  have hlock : lock ∉ fingerprints history :=
    fun hin => hdistinct _ (List.mem_cons_of_mem _ hin) List.mem_cons_self
  rw [mem_underLock_iff, ← h.known fingerprint lock hfingerprint.2 hlock]
  constructor
  · rintro (hin | ⟨-, heq⟩)
    · exact hin
    · exact absurd heq hfingerprint.1
  · exact .inl

theorem Reflects.asked (h : Reflects history seen)
    (hdistinct : Distinct (.asked fingerprint (some lock) :: history)) :
    Reflects (.asked fingerprint (some lock) :: history)
      ((underLock seen lock).insert fingerprint) := by
  have hfingerprint : ∀ other ∈ lock :: locks history, other ≠ fingerprint := by
    rintro other hother rfl
    exact hdistinct _ List.mem_cons_self hother
  have hlock : lock ∉ fingerprints history :=
    fun hin => hdistinct _ (List.mem_cons_of_mem _ hin) List.mem_cons_self
  -- A digest that is recorded afterwards is the one of the present lock.
  have hone : ∀ other, other ∉ fingerprint :: fingerprints history →
      other ∈ (underLock seen lock).insert fingerprint → other = lock := by
    intro other hother hin
    rw [List.mem_cons, not_or] at hother
    rcases (OrderedSet.mem_insert ..).mp hin with hin | rfl
    · rcases mem_underLock_iff.mp hin with ⟨hthere, hin⟩ | ⟨-, heq⟩
      · have hold := (h.origin other hin).resolve_left hother.2
        have hold' := (h.origin lock hthere).resolve_left hlock
        exact h.one other hold lock hold' hin hthere
      · exact heq
    · exact absurd rfl hother.1
  have hpresent : lock ∈ (underLock seen lock).insert fingerprint := by
    rw [OrderedSet.mem_insert, mem_underLock_iff]
    by_cases hin : lock ∈ seen
    · exact .inl (.inl ⟨hin, hin⟩)
    · exact .inl (.inr ⟨hin, rfl⟩)
  refine ⟨?_, ?_, ?_⟩
  · -- What is added is the fingerprint and, if the lock has changed, its digest.
    intro mark hmark
    rcases (OrderedSet.mem_insert ..).mp hmark with hmark | rfl
    · rcases mem_underLock_iff.mp hmark with ⟨-, hin⟩ | ⟨-, rfl⟩
      · exact (h.origin mark hin).imp (List.mem_cons_of_mem _) (List.mem_cons_of_mem _)
      · exact .inr List.mem_cons_self
    · exact .inl List.mem_cons_self
  · have hdigest : ∀ other ∈ locks (.asked fingerprint (some lock) :: history),
        other ∉ fingerprints (.asked fingerprint (some lock) :: history) :=
      fun other hother hin => hdistinct other hin hother
    intro other hother another hanother hin hin'
    rw [hone other (hdigest other hother) hin, hone another (hdigest another hanother) hin']
  · intro other another hother hanother
    rw [known_cons_iff]
    constructor
    · -- The digest is the present one, and the fingerprint is the new one or was there under it.
      rintro ⟨hin, hin'⟩
      obtain rfl := hone another hanother hin
      rcases (OrderedSet.mem_insert ..).mp hin' with hin' | rfl
      · rcases mem_underLock_iff.mp hin' with ⟨hthere, hin'⟩ | ⟨-, rfl⟩
        · refine .inr ⟨fun _ heq => (Option.some.inj heq).symm, ?_⟩
          exact (h.known other another (fun hold => hother (List.mem_cons_of_mem _ hold))
            hlock).mp ⟨hthere, hin'⟩
        · exact absurd List.mem_cons_self hother
      · exact .inl rfl
    · rintro (heq | ⟨hspared, hknown⟩)
      · obtain ⟨rfl, hlock'⟩ := Change.asked.inj heq
        obtain rfl := Option.some.inj hlock'
        exact ⟨hpresent, (OrderedSet.mem_insert ..).mpr (.inr rfl)⟩
      · -- What was known outlives the question only if the lock is the same, so the set was kept.
        obtain rfl := hspared lock rfl
        obtain ⟨hthere, hin⟩ := (h.known other lock
          (fun hold => hother (List.mem_cons_of_mem _ hold)) hlock).mpr hknown
        exact ⟨hpresent, (OrderedSet.mem_insert ..).mpr
          (.inl (mem_underLock_iff.mpr (.inl ⟨hthere, hin⟩)))⟩

/-! ## 4. Runs -/

/-- Marks and a machine after a history. The file of the marks is not there at first, nobody else
writes it, and no use of it has failed; the lock file and everything else may change at any time. -/
inductive Watched (file lockFile : Path) : List Change → Marks → World → Prop
  | new {w : World} (missing : w.tree.readBytes w.cwd file = .error .notFound) :
      Watched file lockFile [] (.new file lockFile) w
  | others {history : List Change} {marks : Marks} {w w' : World}
      (before : Watched file lockFile history marks w)
      (same : w'.tree.readBytes w'.cwd file = w.tree.readBytes w.cwd file) :
      Watched file lockFile history marks w'
  | isNew {history : List Change} {marks marks' : Marks} {w w' : World} {fingerprint : String}
      {fresh : Bool} (before : Watched file lockFile history marks w)
      (run : (marks.isNew fingerprint : StateM World _).run w = ((fresh, marks'), w'))
      (sound : marks'.degraded = false) :
      Watched file lockFile (.asked fingerprint (lockDigest? lockFile w) :: history) marks' w'
  | contains {history : List Change} {marks marks' : Marks} {w w' : World} {mark : String}
      {answer : Bool} (before : Watched file lockFile history marks w)
      (run : ((Marks.contains mark : Step (StateM World) Bool).run.run marks).run w
        = ((.ok answer, marks'), w')) :
      Watched file lockFile history marks' w'
  | forget {history : List Change} {marks marks' : Marks} {w w' : World} {mark : String}
      (before : Watched file lockFile history marks w)
      (run : ((Marks.forget mark : Step (StateM World) Unit).run.run marks).run w
        = ((.ok (), marks'), w')) :
      Watched file lockFile (.forgot mark :: history) marks' w'
  | flush {history : List Change} {marks marks' : Marks} {w w' : World}
      (before : Watched file lockFile history marks w)
      (run : ((Marks.flush : Step (StateM World) Unit).run.run marks).run w
        = ((.ok (), marks'), w')) :
      Watched file lockFile (.flushed :: history) marks' w'

/-- The run lemma: after every history the marks hold a set that reflects it. -/
theorem exists_reflects (h : Watched file lockFile history marks w) (hdistinct : Distinct history) :
    ∃ seen, Image file lockFile seen marks w ∧ Reflects history seen := by
  induction h with
  | new missing => exact ⟨.empty, .inr ⟨⟨rfl, rfl, rfl⟩, rfl, rfl, missing⟩, reflects_nil⟩
  | others _ same ih =>
    obtain ⟨seen, himage, hreflects⟩ := ih hdistinct
    refine ⟨seen, himage.imp (fun h => ⟨h.toSane, h.seen_eq⟩) fun h => ?_, hreflects⟩
    exact ⟨h.toSane, h.seen_eq, h.empty, same.trans h.missing⟩
  | isNew _ run sound ih =>
    obtain ⟨seen, himage, hreflects⟩ := ih hdistinct.of_cons
    rcases isNew_outcome himage run sound with ⟨hlock, -, himage'⟩ | ⟨lock, hlock, -, hloaded⟩
    · rw [hlock]
      exact ⟨seen, himage', hreflects.unreadable _⟩
    · rw [hlock] at hdistinct ⊢
      exact ⟨_, .inl hloaded, hreflects.asked hdistinct⟩
  | contains _ run ih =>
    obtain ⟨seen, himage, hreflects⟩ := ih hdistinct
    exact ⟨seen, .inl (yields_contains _ himage run), hreflects⟩
  | forget _ run ih =>
    obtain ⟨seen, himage, hreflects⟩ := ih hdistinct.of_cons
    exact ⟨_, .inl (yields_forget _ himage run), hreflects.forgot _⟩
  | flush _ run ih =>
    obtain ⟨seen, himage, -⟩ := ih hdistinct.of_cons
    exact ⟨_, .inl (yields_flush himage.sane run), reflects_flushed _⟩

/-- **Marks answer what was seen since the lock file last changed.** After any history without faults,
a fingerprint is not new exactly if the lock file can be read and the fingerprint was asked for under
its present digest, since when no question has met another digest, nothing was flushed, and neither
the fingerprint nor the digest was taken back; provided that no fingerprint is the digest of a lock
file. -/
theorem isNew_eq_false_iff {fresh : Bool} (h : Watched file lockFile history marks w)
    (hrun : (marks.isNew fingerprint : StateM World _).run w = ((fresh, marks'), w'))
    (hsound : marks'.degraded = false)
    (hdistinct : Distinct (.asked fingerprint (lockDigest? lockFile w) :: history)) :
    fresh = false ↔
      ∃ lock, lockDigest? lockFile w = some lock ∧ Known history fingerprint lock := by
  obtain ⟨seen, himage, hreflects⟩ := exists_reflects h hdistinct.of_cons
  rcases isNew_outcome himage hrun hsound with ⟨hlock, rfl, -⟩ | ⟨lock, hlock, hfresh, -⟩
  · rw [hlock]
    simp
  · rw [hlock] at hdistinct ⊢
    rw [hfresh, hreflects.mem_underLock_iff_known hdistinct]
    constructor
    · exact fun hknown => ⟨lock, rfl, hknown⟩
    · rintro ⟨other, heq, hknown⟩
      rwa [Option.some.inj heq]

/-- A machine with nothing but a lock file. -/
def lockedWorld : World where
  tree := FileTree.empty.insert ["lock"] (.file "x".toUTF8)
  cwd := []
  temporary := ⟨"tmp"⟩
  events := []

theorem lockDigest?_of_readBytes {bytes : ByteArray}
    (h : (w.tree.readBytes w.cwd lockFile).toOption = some bytes) :
    lockDigest? lockFile w = some (Sha256.hexDigest bytes) := by
  rw [lockDigest?, eq_ok_of_toOption h]

/-- A fingerprint that is asked for twice under one lock file is not new the second time. -/
theorem isNew_eq_false_iff_twice :
    ∃ marks w marks' w', Watched ⟨"cache.json"⟩ ⟨"lock"⟩
        [.asked "f" (some (Sha256.hexDigest "x".toUTF8))] marks w ∧
      (marks.isNew "f" : StateM World _).run w = ((false, marks'), w') := by
  rcases hfirst : ((Marks.new ⟨"cache.json"⟩ ⟨"lock"⟩).isNew "f" : StateM World _).run lockedWorld
    with ⟨⟨fresh, marks⟩, w⟩
  rcases hsecond : (marks.isNew "f" : StateM World _).run w with ⟨⟨fresh', marks'⟩, w'⟩
  have houtcome :
      let first := ((Marks.new ⟨"cache.json"⟩ ⟨"lock"⟩).isNew "f" : StateM World _).run lockedWorld
      first.1.2.degraded = false ∧
        (first.2.tree.readBytes first.2.cwd ⟨"lock"⟩).toOption = some "x".toUTF8 ∧
        ((first.1.2.isNew "f" : StateM World _).run first.2).1.2.degraded = false := by
    decide +kernel
  obtain ⟨hsound, hread, hsound'⟩ := houtcome
  rw [hfirst] at hsound hread hsound'
  rw [hsecond] at hsound'
  have hbefore : lockDigest? ⟨"lock"⟩ lockedWorld = some (Sha256.hexDigest "x".toUTF8) :=
    lockDigest?_of_readBytes (by decide +kernel)
  have hwatched := Watched.isNew (.new rfl) hfirst hsound
  rw [hbefore] at hwatched
  have hpresent := lockDigest?_of_readBytes hread
  have hdistinct : Distinct (.asked "f" (lockDigest? ⟨"lock"⟩ w) ::
      [.asked "f" (some (Sha256.hexDigest "x".toUTF8))]) := by
    -- A digest is longer than the fingerprint.
    have hne : "f" ≠ Sha256.hexDigest "x".toUTF8 := by
      intro heq
      have hlength := congrArg String.length heq
      rw [Sha256.length_hexDigest] at hlength
      exact absurd hlength (by decide)
    rw [hpresent]
    intro fingerprint hin hlock
    simp only [fingerprints_asked, fingerprints_nil, locks_asked_some, locks_nil, List.mem_cons,
      List.not_mem_nil, or_false, or_self] at hin hlock
    exact hne (hin.symm.trans hlock)
  have hknown := (isNew_eq_false_iff hwatched hsecond hsound' hdistinct).mpr
    ⟨_, hpresent, [], [], rfl, fun _ hin => absurd hin List.not_mem_nil⟩
  exact ⟨marks, w, marks', w', hwatched, by rw [hsecond, hknown]⟩

end Marks

end Graft
