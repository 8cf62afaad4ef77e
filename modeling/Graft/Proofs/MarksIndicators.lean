/-
Digests of the lock file and fingerprints in one set.

Marks keep both kinds of texts in one set and do not tell them apart. So a fingerprint may be taken for
the digest of a lock file, and a digest for a fingerprint: a question is answered with "not new" if the
fingerprint is the present digest itself, and also if the present digest is in the set for having been
asked for as a fingerprint. What is recorded after any history can be told without the set
(`Marks.Noted`), and with it when exactly a question is answered so.

Marks may begin with any set, be it in memory, in a file that was not read yet, or given by a file that
holds no marks at all. What is known of marks in memory is carried over to the others by one lemma: each
step first needs the set, and needing it twice is needing it once (`Marks.yields_of_loaded`).

The main statement is `Marks.new_iff_apart`.
-/
import Graft.Proofs.MarksMirror

set_option autoImplicit false

namespace Graft

namespace Marks

variable {file lockFile : Path} {seen start : OrderedSet String} {marks marks' : Marks}
  {w w' : World}

/-! ## 1. The set that marks hold -/

/-- The set of a file: the texts that it lists, and none if it is missing or lists no texts. -/
def listed (file : Path) (w : World) : OrderedSet String :=
  match w.tree.readBytes w.cwd file with
  | .ok bytes => .ofList ((Json.ofBytes? bytes : Option (List String)).getD [])
  | .error _ => .empty

/-- Marks without a fault that hold a set: in memory, or else in their file. -/
structure Held (file lockFile : Path) (seen : OrderedSet String) (marks : Marks) (w : World) : Prop
    extends Sane file lockFile marks where
  seen_eq : marks.seen.getD (listed file w) = seen

theorem Loaded.held (h : Loaded file lockFile seen marks w) : Held file lockFile seen marks w :=
  ⟨h.toSane, by rw [h.seen_eq, Option.getD_some]⟩

theorem Held.of_same (h : Held file lockFile seen marks w)
    (hsame : w'.tree.readBytes w'.cwd file = w.tree.readBytes w.cwd file) :
    Held file lockFile seen marks w' := by
  refine ⟨h.toSane, ?_⟩
  rw [show listed file w' = listed file w by rw [listed, listed, hsame]]
  exact h.seen_eq

/-- Marks in memory do not depend on the machine. -/
theorem Held.of_memory (h : Held file lockFile seen marks w) (hmemory : marks.seen.isSome = true) :
    Held file lockFile seen marks w' := by
  obtain ⟨found, hfound⟩ := Option.isSome_iff_exists.mp hmemory
  refine ⟨h.toSane, ?_⟩
  rw [← h.seen_eq, hfound, Option.getD_some, Option.getD_some]

theorem listed_of_missing (h : w.tree.readBytes w.cwd file = .error .notFound) :
    listed file w = .empty := by
  rw [listed, h]

theorem listed_of_bytes {bytes : ByteArray} (h : w.tree.readBytes w.cwd file = .ok bytes) :
    listed file w = .ofList ((Json.ofBytes? bytes : Option (List String)).getD []) := by
  rw [listed, h]

/-- The set is in memory once it was needed. -/
theorem held_storage : Yields (Held file lockFile seen) storage
    fun found marks w => found = seen ∧ Loaded file lockFile seen marks w := by
  intro marks w found marks' w' hheld hrun
  have hread {read : Except FileError ByteArray} {w₁ : World}
      (h : (Host.readBytes marks.file : StateM World _).run w = (read, w₁)) :
      w.tree.readBytes w.cwd file = read := by
    rw [hheld.file_eq] at h
    exact (Prod.mk.inj h).1
  -- If the set comes from the file, it is the one that the file lists.
  have hlisted (values : List String) (hunread : marks.seen = none)
      (hvalues : listed file w = .ofList values) :
      .ofList values = seen ∧
        Loaded file lockFile seen { marks with seen := some (.ofList values) } w' := by
    have hseen : (.ofList values : OrderedSet String) = seen := by
      rw [← hvalues, ← hheld.seen_eq, hunread, Option.getD_none]
    exact ⟨hseen, hheld.toSane.set_seen _, congrArg some hseen⟩
  generalize hresult : (Except.ok found : Except MarksError _) = result at hrun
  cases loading_of_run hrun with
  | memory hseen =>
    obtain rfl := Except.ok.inj hresult
    have hfound : found = seen := by rw [← hheld.seen_eq, hseen, Option.getD_some]
    exact ⟨hfound, hheld.toSane, hfound ▸ hseen⟩
  | missing hunread h =>
    obtain rfl := Except.ok.inj hresult
    exact hlisted [] hunread (listed_of_missing (hread h))
  | unreadable => exact absurd hresult (by simp)
  | decoded hunread h hdecode =>
    obtain rfl := Except.ok.inj hresult
    exact hlisted _ hunread (by rw [listed_of_bytes (hread h), hdecode]; rfl)
  | discarded hunread h hgarbled _ hflushing =>
    cases hflushing with
    | cleared =>
      obtain rfl := Except.ok.inj hresult
      exact hlisted [] hunread (by rw [listed_of_bytes (hread h), hgarbled]; rfl)
    | stuck => exact absurd hresult (by simp [Except.map])

/-- What a step does that first needs the set is known for all marks if it is for marks in memory:
needing the set again changes nothing. -/
theorem yields_of_loaded {α : Type} {f : OrderedSet String → Step (StateM World) α}
    {T : α → Marks → World → Prop} (h : Yields (Loaded file lockFile seen) (storage >>= f) T) :
    Yields (Held file lockFile seen) (storage >>= f) T := by
  intro marks w a marks' w' hheld hrun
  obtain ⟨found, marks₁, w₁, hstorage, hrest⟩ := run_bind_run_eq_ok hrun
  obtain ⟨rfl, hloaded⟩ := held_storage hheld hstorage
  refine h hloaded ?_
  have hagain : ((storage : Step (StateM World) _).run.run marks₁).run w₁
      = ((.ok found, marks₁), w₁) := by
    rw [storage, run_get_bind, hloaded.seen_eq]
    rfl
  rw [run_bind_run, hagain]
  exact hrest

theorem held_contains (mark : String) : Yields (Held file lockFile seen) (contains mark)
    fun _ => Loaded file lockFile seen :=
  yields_of_loaded ((yields_contains mark).mono fun _ _ => .inl)

theorem held_forget (mark : String) : Yields (Held file lockFile seen) (forget mark)
    fun _ => Loaded file lockFile (seen.erase mark) :=
  yields_of_loaded ((yields_forget mark).mono fun _ _ => .inl)

theorem held_check (lock fingerprint : String) :
    Yields (Held file lockFile seen) (check lock fingerprint)
      fun fresh marks w => (fresh = false ↔ fingerprint ∈ underLock seen lock) ∧
        Loaded file lockFile ((underLock seen lock).insert fingerprint) marks w :=
  yields_of_loaded ((yields_check lock fingerprint).mono fun _ _ => .inl)

/-- What a question without a fault does to any marks. -/
theorem held_asking {fingerprint : String} {fresh : Bool} (h : Held file lockFile seen marks w)
    (hasking : Asking marks fingerprint w fresh marks' w') (hsound : marks'.degraded = false) :
    (lockDigest? lockFile w = none ∧ fresh = true ∧ Held file lockFile seen marks' w') ∨
      ∃ lock, lockDigest? lockFile w = some lock ∧
        (fresh = false ↔ fingerprint ∈ underLock seen lock) ∧
        Loaded file lockFile ((underLock seen lock).insert fingerprint) marks' w' := by
  have hread {read : Except FileError ByteArray} {w₁ : World}
      (hlock : (Host.readBytes marks.lockFile : StateM World _).run w = (read, w₁)) :
      w₁ = w ∧ w.tree.readBytes w.cwd lockFile = read := by
    rw [h.lockFile_eq] at hlock
    obtain ⟨rfl, rfl⟩ := Prod.mk.inj hlock
    exact ⟨rfl, rfl⟩
  unfold lockDigest?
  cases hasking with
  | unlocked hlock hlogged =>
    obtain ⟨rfl, herror⟩ := hread hlock
    obtain ⟨-, rfl⟩ := Prod.mk.inj hlogged
    rw [herror]
    exact .inl ⟨rfl, rfl, h.of_same rfl⟩
  | degraded _ hfault => exact absurd (h.sound.symm.trans hfault) (by simp)
  | checked hlock _ hcheck =>
    obtain ⟨rfl, hbytes⟩ := hread hlock
    rw [hbytes]
    exact .inr ⟨_, rfl, held_check _ _ h hcheck⟩
  | failed => exact absurd hsound (by simp)

/-! ## 2. What a history has recorded -/

/-- What a request that is met adds to a history, on a machine as it is then. -/
def Request.changes (lockFile : Path) (w : World) : Request → List Change
  | .isNew fingerprint => [.asked fingerprint (lockDigest? lockFile w)]
  | .contains _ => []
  | .forget mark => [.forgot mark]
  | .flush => [.flushed]

/-- A text is in the set after a history that began with some set. The latest change comes first. A
question records the fingerprint and the digest of the lock, and keeps the others exactly if the digest
was recorded, as whatever it was. -/
def Noted (start : OrderedSet String) : List Change → String → Prop
  | [], mark => mark ∈ start
  | .asked _ none :: history, mark => Noted start history mark
  | .asked fingerprint (some lock) :: history, mark =>
    mark = fingerprint ∨ mark = lock ∨
      (Noted start history lock ∧ Noted start history mark)
  | .forgot other :: history, mark => mark ≠ other ∧ Noted start history mark
  | .flushed :: _, _ => False

/-- Marks and a machine after a history that began with some set. In between the machine may change
and the marks may be opened anew, as long as they hold the set that they held. -/
inductive Traced (file lockFile : Path) (start : OrderedSet String) :
    List Change → Marks → World → Prop
  | start {marks : Marks} {w : World} (held : Held file lockFile start marks w) :
      Traced file lockFile start [] marks w
  | meanwhile {history : List Change} {marks marks' : Marks} {w w' : World}
      (before : Traced file lockFile start history marks w)
      (same : ∀ seen, Held file lockFile seen marks w → Held file lockFile seen marks' w') :
      Traced file lockFile start history marks' w'
  | request {history : List Change} {marks marks' : Marks} {w w' : World} {request : Request}
      {reply : Reply} (before : Traced file lockFile start history marks w)
      (run : (marks.answer request : StateM World _).run w = ((reply, marks'), w'))
      (met : reply.Met) (sound : marks'.degraded = false) :
      Traced file lockFile start (request.changes lockFile w ++ history) marks' w'

variable {history : List Change} {request : Request} {reply : Reply}
  {fingerprint lock mark : String}

theorem mem_underLock_insert_iff :
    mark ∈ (underLock seen lock).insert fingerprint ↔
      mark = fingerprint ∨ mark = lock ∨ (lock ∈ seen ∧ mark ∈ seen) := by
  rw [OrderedSet.mem_insert, mem_underLock_iff]
  constructor
  · rintro ((hin | ⟨-, rfl⟩) | rfl)
    · exact .inr (.inr hin)
    · exact .inr (.inl rfl)
    · exact .inl rfl
  · rintro (rfl | rfl | hin)
    · exact .inr rfl
    · by_cases hin : mark ∈ seen
      · exact .inl (.inl ⟨hin, hin⟩)
      · exact .inl (.inr ⟨hin, rfl⟩)
    · exact .inl (.inl hin)

/-- The step lemma: a request that is met leaves the set that it is said to leave. -/
theorem exists_held_of_answer (h : Held file lockFile seen marks w)
    (hseen : ∀ mark, mark ∈ seen ↔ Noted start history mark)
    (hrun : (marks.answer request : StateM World _).run w = ((reply, marks'), w'))
    (hmet : reply.Met) (hsound : marks'.degraded = false) :
    ∃ seen', Held file lockFile seen' marks' w' ∧
      ∀ mark, mark ∈ seen' ↔ Noted start (request.changes lockFile w ++ history) mark := by
  cases answering_of_run hrun with
  | isNew hasking =>
    rcases held_asking h hasking hsound with ⟨hlock, -, hheld⟩ | ⟨lock, hlock, -, hloaded⟩
    · exact ⟨seen, hheld, fun mark => by rw [Request.changes, hlock]; exact hseen mark⟩
    · refine ⟨_, hloaded.held, fun mark => ?_⟩
      rw [mem_underLock_insert_iff, hseen, hseen, Request.changes, hlock]
      rfl
  | contains hcontains =>
    obtain ⟨answer, rfl⟩ := hmet
    exact ⟨seen, (held_contains _ h hcontains).held, hseen⟩
  | forget hforget =>
    obtain rfl := hmet
    refine ⟨_, (held_forget _ h hforget).held, fun mark => ?_⟩
    rw [OrderedSet.mem_erase, hseen, and_comm]
    rfl
  | flush hflush =>
    obtain rfl := hmet
    exact ⟨.empty, (yields_flush h.toSane hflush).held, fun mark =>
      ⟨fun hin => absurd hin (OrderedSet.not_mem_empty mark), False.elim⟩⟩

/-- The run lemma. -/
theorem exists_held (h : Traced file lockFile start history marks w) :
    ∃ seen, Held file lockFile seen marks w ∧
      ∀ mark, mark ∈ seen ↔ Noted start history mark := by
  induction h with
  | start hheld => exact ⟨start, hheld, fun _ => Iff.rfl⟩
  | meanwhile _ same ih =>
    obtain ⟨seen, hheld, hseen⟩ := ih
    exact ⟨seen, same seen hheld, hseen⟩
  | request _ run met sound ih =>
    obtain ⟨seen, hheld, hseen⟩ := ih
    exact exists_held_of_answer hheld hseen run met sound

/-! ## 3. Histories in which nothing is confused -/

/-- Digests of the lock file are told apart from everything else: no fingerprint that was asked for is
a digest that was met, and the set at the beginning holds one of these digests at most. -/
structure ToldApart (start : OrderedSet String) (history : List Change) : Prop where
  distinct : Distinct history
  single : ∀ lock ∈ locks history, ∀ other ∈ locks history, lock ∈ start → other ∈ start →
    lock = other

/-- The digest that the last question met which met one. -/
def lastLock? (history : List Change) : Option String := (locks history).head?

/-- The digests that are recorded in the course of a history: the last one that was met, or one from the
beginning. The digests are those that the whole history meets, so that the history may be taken apart. -/
theorem noted_lock {digests : List String} (hlocks : ∀ lock ∈ locks history, lock ∈ digests)
    (hdistinct : ∀ fingerprint ∈ fingerprints history, fingerprint ∉ digests)
    (hsingle : ∀ lock ∈ digests, ∀ other ∈ digests, lock ∈ start → other ∈ start → lock = other) :
    (∀ lock ∈ digests, ∀ other ∈ digests, Noted start history lock →
        Noted start history other → lock = other) ∧
      ∀ last, lastLock? history = some last → ∀ lock ∈ digests, Noted start history lock →
        lock = last := by
  induction history with
  | nil => exact ⟨hsingle, fun last hlast => absurd hlast (by simp [lastLock?])⟩
  | cons change history ih =>
    cases change with
    | asked fingerprint met =>
      cases met with
      | none =>
        exact ih hlocks fun other hother => hdistinct other (List.mem_cons_of_mem _ hother)
      | some met =>
        have hmet : met ∈ digests := hlocks met List.mem_cons_self
        obtain ⟨hone, -⟩ := ih (fun lock hlock => hlocks lock (List.mem_cons_of_mem _ hlock))
          fun other hother => hdistinct other (List.mem_cons_of_mem _ hother)
        -- The fingerprint is no digest, and what was kept was kept because of the same digest.
        have hlast : ∀ lock ∈ digests,
            Noted start (.asked fingerprint (some met) :: history) lock → lock = met := by
          rintro lock hlock (rfl | rfl | ⟨hkept, hnoted⟩)
          · exact absurd hlock (hdistinct lock List.mem_cons_self)
          · rfl
          · exact hone lock hlock met hmet hnoted hkept
        refine ⟨fun lock hlock other hother h h' => ?_, fun last hhead lock hlock h => ?_⟩
        · rw [hlast lock hlock h, hlast other hother h']
        · rw [hlast lock hlock h]
          exact Option.some.inj hhead
    | forgot mark =>
      obtain ⟨hone, hlast⟩ := ih hlocks hdistinct
      exact ⟨fun lock hlock other hother h h' => hone lock hlock other hother h.2 h'.2,
        fun last hhead lock hlock h => hlast last hhead lock hlock h.2⟩
    | flushed => exact ⟨fun _ _ _ _ h => h.elim, fun _ _ _ _ h => h.elim⟩

/-- Under a digest that is not the last one that was met, nothing is recorded that is told apart. -/
theorem ToldApart.not_noted (h : ToldApart start (.asked fingerprint (some lock) :: history))
    {last : String} (hlast : lastLock? history = some last) (hchanged : last ≠ lock) :
    ¬ Noted start history lock := by
  intro hnoted
  have hdigests : ∀ other ∈ locks history,
      other ∈ locks (.asked fingerprint (some lock) :: history) :=
    fun _ hin => List.mem_cons_of_mem _ hin
  have hdistinct : ∀ other ∈ fingerprints history,
      other ∉ locks (.asked fingerprint (some lock) :: history) :=
    fun other hother => h.distinct other (List.mem_cons_of_mem _ hother)
  have hlocks := (noted_lock hdigests hdistinct h.single).2
  exact hchanged (hlocks last hlast lock List.mem_cons_self hnoted).symm

/-! ## 4. Answers -/

/-- **When a fingerprint is new.** Marks that began with any set and have met no fault answer under a
lock file that can be read, and they may be asked for any text. The fingerprint is new exactly if it is
not the digest of the lock file, and is not recorded together with that digest. So if nothing is
recorded it is new exactly if it is not the digest. If the question before met another digest, it is new
as long as digests are told apart from all that was asked for. -/
theorem new_iff_apart {fresh : Bool} (h : Traced file lockFile start history marks w)
    (hlock : lockDigest? lockFile w = some lock)
    (hrun : (marks.isNew fingerprint : StateM World _).run w = ((fresh, marks'), w'))
    (hsound : marks'.degraded = false) :
    (fresh = true ↔
        fingerprint ≠ lock ∧ ¬ (Noted start history lock ∧ Noted start history fingerprint)) ∧
      ((∀ mark, ¬ Noted start history mark) → (fresh = true ↔ fingerprint ≠ lock)) ∧
      (∀ last, lastLock? history = some last → last ≠ lock →
        ToldApart start (.asked fingerprint (some lock) :: history) → fresh = true) := by
  obtain ⟨seen, hheld, hseen⟩ := exists_held h
  have hexact : fresh = true ↔
      fingerprint ≠ lock ∧ ¬ (Noted start history lock ∧ Noted start history fingerprint) := by
    rcases held_asking hheld (asking_of_run hrun) hsound with
      ⟨hnone, -⟩ | ⟨present, hpresent, hfresh, -⟩
    · exact absurd (hlock.symm.trans hnone) (by simp)
    · obtain rfl := Option.some.inj (hlock.symm.trans hpresent)
      rw [← hseen, ← hseen, ← not_or, ← Bool.not_eq_false, hfresh, mem_underLock_iff]
      -- If the digest is not recorded, then it is not recorded together with anything.
      by_cases hin : lock ∈ seen
      · by_cases heq : fingerprint = lock <;> simp [hin, heq]
      · simp [hin]
  refine ⟨hexact, fun hnone => ?_, fun last hlast hchanged hapart => ?_⟩
  · rw [hexact]
    exact ⟨fun h => h.1, fun hne => ⟨hne, fun hboth => hnone lock hboth.1⟩⟩
  · refine hexact.mpr ⟨?_, fun hboth => hapart.not_noted hlast hchanged hboth.1⟩
    rintro rfl
    exact hapart.distinct fingerprint List.mem_cons_self List.mem_cons_self

/-- A fingerprint is new under the changed lock file. -/
theorem new_iff_apart_changed :
    ∃ marks w marks' w', Traced ⟨"cache.json"⟩ ⟨"lock"⟩ .empty
        [.asked "f" (some (Sha256.hexDigest "x".toUTF8))] marks w ∧
      lockDigest? ⟨"lock"⟩ w = some (Sha256.hexDigest "y".toUTF8) ∧
      (marks.isNew "f" : StateM World _).run w = ((true, marks'), w') := by
  rcases hfirst : ((Marks.new ⟨"cache.json"⟩ ⟨"lock"⟩).answer (.isNew "f") : StateM World _).run
    lockedWorld with ⟨⟨reply, marks⟩, w⟩
  rcases hsecond : (marks.isNew "f" : StateM World _).run (changeLock w)
    with ⟨⟨fresh, marks'⟩, w'⟩
  have houtcome :
      let first := ((Marks.new ⟨"cache.json"⟩ ⟨"lock"⟩).answer (.isNew "f") :
        StateM World _).run lockedWorld
      first.1.1.Met ∧ first.1.2.degraded = false ∧ first.1.2.seen.isSome = true ∧
        ((changeLock first.2).tree.readBytes (changeLock first.2).cwd ⟨"lock"⟩).toOption
          = some "y".toUTF8 ∧
        ((first.1.2.isNew "f" : StateM World _).run (changeLock first.2)).1.2.degraded = false := by
    decide +kernel
  rw [hfirst] at houtcome
  dsimp only at houtcome
  rw [hsecond] at houtcome
  obtain ⟨hmet, hsound, hmemory, hread, hsound'⟩ := houtcome
  have hbefore : lockDigest? ⟨"lock"⟩ lockedWorld = some (Sha256.hexDigest "x".toUTF8) :=
    lockDigest?_of_readBytes (by decide +kernel)
  have hafter := lockDigest?_of_readBytes hread
  have hnew : Held ⟨"cache.json"⟩ ⟨"lock"⟩ .empty (.new ⟨"cache.json"⟩ ⟨"lock"⟩) lockedWorld :=
    ⟨⟨rfl, rfl, rfl⟩, rfl⟩
  have hasked := Traced.request (.start hnew) hfirst hmet hsound
  rw [Request.changes, hbefore, List.singleton_append] at hasked
  have htraced : Traced ⟨"cache.json"⟩ ⟨"lock"⟩ .empty
      [.asked "f" (some (Sha256.hexDigest "x".toUTF8))] marks (changeLock w) :=
    .meanwhile hasked fun _ hheld => hheld.of_memory hmemory
  have hne : Sha256.hexDigest "x".toUTF8 ≠ Sha256.hexDigest "y".toUTF8 := by decide +kernel
  have hapart : ToldApart .empty [.asked "f" (some (Sha256.hexDigest "y".toUTF8)),
      .asked "f" (some (Sha256.hexDigest "x".toUTF8))] :=
    ⟨by unfold Distinct; decide +kernel, fun _ _ _ _ h => absurd h (OrderedSet.not_mem_empty _)⟩
  have hfresh := (new_iff_apart htraced hafter hsecond hsound').2.2 _ rfl hne hapart
  exact ⟨marks, changeLock w, marks', w', htraced, hafter, by rw [hsecond, hfresh]⟩

/-- The digest of the lock file is not new to marks that have seen nothing. And if the digest of the next
lock file is asked for as a fingerprint, then what is recorded outlives the change of the lock file. -/
theorem digest_taken_for_fingerprint :
    let fresh := Marks.new ⟨"cache.json"⟩ ⟨"lock"⟩
    let x := Sha256.hexDigest "x".toUTF8
    let y := Sha256.hexDigest "y".toUTF8
    let asked := play fresh lockedWorld [(.request (.isNew "f"), false), (.request (.isNew y), false)]
    lockDigest? ⟨"lock"⟩ lockedWorld = some x ∧
      (play fresh lockedWorld [(.request (.isNew x), false)]).1 = [.fresh false] ∧
      lockDigest? ⟨"lock"⟩ asked.2.2 = some x ∧
      lockDigest? ⟨"lock"⟩ (changeLock asked.2.2) = some y ∧ x ≠ y ∧
      asked.2.1.degraded = false ∧
      (play asked.2.1 asked.2.2 [(.others changeLock, false), (.request (.isNew "f"), false)]).1
        = [.fresh false] := by
  decide +kernel

end Marks

end Graft
