/-
Marks on a machine whose files fail.

Reading, removing, making a directory and replacing a file may fail at any time and for any reason, and
between the requests anything may happen to the machine. Two things hold all the same. From the first
question on that meets a fault of the file of the marks every fingerprint is new. And a fingerprint that
is not new was found in the file, or was put into the set and written, and nobody has flushed the marks
or taken it back since then.

What a request has met is told by the record of a machine that keeps one. The main statement is
`Marks.fault_never_clean`.
-/
import Graft.Proofs.Recording
import Graft.World

set_option autoImplicit false

namespace Graft

/-! ## 1. Since then -/

section

variable {α : Type} {P Q : α → Prop} {x : α} {history : List α}

/-- Something happened, and everything later has spared it. The latest comes first. -/
def Since (P Q : α → Prop) (history : List α) : Prop :=
  ∃ later x earlier, history = later ++ x :: earlier ∧ P x ∧ ∀ y ∈ later, Q y

theorem since_cons_iff : Since P Q (x :: history) ↔ P x ∨ (Q x ∧ Since P Q history) := by
  constructor
  · rintro ⟨later, y, earlier, h, hP, hQ⟩
    cases later with
    | nil =>
      obtain ⟨rfl, -⟩ := List.cons.inj h
      exact .inl hP
    | cons first rest =>
      obtain ⟨rfl, rfl⟩ := List.cons.inj h
      obtain ⟨hfirst, hrest⟩ := List.forall_mem_cons.mp hQ
      exact .inr ⟨hfirst, rest, y, earlier, rfl, hP, hrest⟩
  · rintro (hP | ⟨hQ, later, y, earlier, rfl, hP, hlater⟩)
    · exact ⟨[], x, history, rfl, hP, fun _ hin => absurd hin List.not_mem_nil⟩
    · exact ⟨x :: later, y, earlier, rfl, hP, List.forall_mem_cons.mpr ⟨hQ, hlater⟩⟩

end

/-! ## 2. Uses of the file of the marks -/

namespace Access

/-- A use of the file of the marks that fails. That the file is not there is no fault. -/
def IsFault (file : Path) : Access → Prop
  | .read path (.error error) => path = file ∧ error ≠ .notFound
  | .removed path (.error error) => path = file ∧ error ≠ .notFound
  | .created directory (.error _) => directory = file.directory
  | .replaced path _ (.error _) => path = file
  | _ => False

instance (file : Path) : DecidablePred (IsFault file)
  | .read path (.error error) => inferInstanceAs (Decidable (path = file ∧ error ≠ .notFound))
  | .removed path (.error error) => inferInstanceAs (Decidable (path = file ∧ error ≠ .notFound))
  | .created directory (.error _) => inferInstanceAs (Decidable (directory = file.directory))
  | .replaced path _ (.error _) => inferInstanceAs (Decidable (path = file))
  | .read _ (.ok _) => .isFalse id
  | .removed _ (.ok _) => .isFalse id
  | .created _ (.ok _) => .isFalse id
  | .replaced _ _ (.ok _) => .isFalse id

/-- Deleting the file was tried. -/
def IsRemoval (file : Path) : Access → Prop
  | .removed path _ => path = file
  | _ => False

/-- A mark was found in the file. -/
def Finds (file : Path) (mark : String) (access : Access) : Prop :=
  ∃ bytes values, access = .read file (.ok bytes) ∧
    (Json.ofBytes? bytes : Option (List String)) = some values ∧ mark ∈ values

/-- A set with the mark was written to the file. -/
def Writes (file : Path) (mark : String) (access : Access) : Prop :=
  ∃ seen, access = .replaced file (Marks.content seen) (.ok ()) ∧ mark ∈ seen

/-- A mark comes into the set: it was found, or it may be put there and was written. -/
def Brings (file : Path) (offered : String → Prop) (mark : String) (access : Access) : Prop :=
  access.Finds file mark ∨ (offered mark ∧ access.Writes file mark)

end Access

namespace Marks

variable {σ : Type} {file lockFile : Path} {marks marks' : Marks} {mark : String}

/-! ## 3. Where the set comes from -/

section

/-- A mark was brought by one of these uses of the file, and not removed by a later one; or it was there
before them, and none has removed it. -/
def Gained (file : Path) (offered : String → Prop) (origin : Option (OrderedSet String))
    (accesses : List Access) (mark : String) : Prop :=
  Since (Access.Brings file offered mark) (fun access => ¬ access.IsRemoval file) accesses ∨
    ((∀ access ∈ accesses, ¬ access.IsRemoval file) ∧ ∃ seen, origin = some seen ∧ mark ∈ seen)

/-- Marks on a machine with a record, in the course of an answer that began with a set in memory. -/
structure Sourced (file lockFile : Path) (degraded : Bool) (offered : String → Prop)
    (origin : Option (OrderedSet String)) (marks : Marks) (r : Recorded σ) : Prop where
  file_eq : marks.file = file
  lockFile_eq : marks.lockFile = lockFile
  degraded_eq : marks.degraded = degraded
  gained : ∀ seen, marks.seen = some seen →
    ∀ mark ∈ seen, Gained file offered origin r.accesses mark

/-- No fault was met. -/
def Unharmed (file : Path) (r : Recorded σ) : Prop :=
  ∀ access ∈ r.accesses, ¬ access.IsFault file

variable {degraded : Bool} {offered : String → Prop} {origin : Option (OrderedSet String)}
  {access : Access} {accesses : List Access} {r r' : Recorded σ}

theorem sourced_start (marks : Marks) (offered : String → Prop) (s : σ) :
    Sourced marks.file marks.lockFile marks.degraded offered marks.seen marks
      (⟨s, []⟩ : Recorded σ) :=
  ⟨rfl, rfl, rfl, fun seen hseen _ hmark =>
    .inr ⟨fun _ hin => absurd hin List.not_mem_nil, seen, hseen, hmark⟩⟩

theorem Gained.cons (h : Gained file offered origin accesses mark)
    (hkept : ¬ access.IsRemoval file) :
    Gained file offered origin (access :: accesses) mark := by
  rcases h with hsince | ⟨hall, horigin⟩
  · exact .inl (since_cons_iff.mpr (.inr ⟨hkept, hsince⟩))
  · exact .inr ⟨List.forall_mem_cons.mpr ⟨hkept, hall⟩, horigin⟩

theorem gained_of_brings (h : access.Brings file offered mark) :
    Gained file offered origin (access :: accesses) mark :=
  .inl (since_cons_iff.mpr (.inl h))

theorem Sourced.of_cons (h : Sourced file lockFile degraded offered origin marks r)
    (hrecord : r'.accesses = access :: r.accesses) (hkept : ¬ access.IsRemoval file) :
    Sourced file lockFile degraded offered origin marks r' := by
  refine ⟨h.file_eq, h.lockFile_eq, h.degraded_eq, fun seen hseen mark hmark => ?_⟩
  rw [hrecord]
  exact (h.gained seen hseen mark hmark).cons hkept

theorem Sourced.of_log (h : Sourced file lockFile degraded offered origin marks r)
    (hrecord : r'.accesses = r.accesses) :
    Sourced file lockFile degraded offered origin marks r' := by
  refine ⟨h.file_eq, h.lockFile_eq, h.degraded_eq, fun seen hseen mark hmark => ?_⟩
  rw [hrecord]
  exact h.gained seen hseen mark hmark

/-- The set in memory may be exchanged for one with marks that were gained. -/
theorem Sourced.set_seen {seen : OrderedSet String}
    (h : Sourced file lockFile degraded offered origin marks r)
    (hgained : ∀ mark ∈ seen, Gained file offered origin r'.accesses mark) :
    Sourced file lockFile degraded offered origin { marks with seen := some seen } r' := by
  refine ⟨h.file_eq, h.lockFile_eq, h.degraded_eq, fun found hfound => ?_⟩
  obtain rfl := Option.some.inj hfound
  exact hgained

theorem Sourced.set_empty (h : Sourced file lockFile degraded offered origin marks r)
    (r' : Recorded σ) :
    Sourced file lockFile degraded offered origin { marks with seen := some .empty } r' :=
  h.set_seen fun mark hmark => absurd hmark (OrderedSet.not_mem_empty mark)

theorem Unharmed.of_cons (h : Unharmed file r) (hrecord : r'.accesses = access :: r.accesses)
    (haccess : ¬ access.IsFault file) : Unharmed file r' := by
  rw [Unharmed, hrecord]
  exact List.forall_mem_cons.mpr ⟨haccess, h⟩

theorem Unharmed.of_log (h : Unharmed file r) (hrecord : r'.accesses = r.accesses) :
    Unharmed file r' := by
  rw [Unharmed, hrecord]
  exact h

variable [Host (StateM σ)]

/-! ### Steps

Each step is sourced however it ends. If it ends well, it has met no fault. -/

theorem flushing_sourced {result : Except MarksError Unit}
    (hflushing : Flushing marks r result marks' r')
    (h : Sourced file lockFile degraded offered origin marks r) :
    Sourced file lockFile degraded offered origin marks' r' ∧
      marks'.seen = some .empty ∧ (result = .ok () → Unharmed file r → Unharmed file r') := by
  cases hflushing with
  | cleared hremove hgone =>
    refine ⟨h.set_empty r', rfl, fun _ hunharmed => ?_⟩
    refine hunharmed.of_cons (Recorded.accesses_removeFile hremove) ?_
    rcases hgone with rfl | rfl
    · exact id
    · exact fun hfault => hfault.2 rfl
  | stuck hremove hfault => exact ⟨h.set_empty r', rfl, fun hok => absurd hok (by simp)⟩

theorem loading_sourced {result : Except MarksError (OrderedSet String)}
    (hloading : Loading marks r result marks' r')
    (h : Sourced file lockFile degraded offered origin marks r) :
    Sourced file lockFile degraded offered origin marks' r' ∧
      (∀ seen, result = .ok seen → marks'.seen = some seen ∧ (Unharmed file r → Unharmed file r')) ∧
      (∀ error, result = .error error → ∀ seen, marks'.seen = some seen → seen = .empty) := by
  have hread {read : Except FileError ByteArray} {t : Recorded σ}
      (hrun : (Host.readBytes marks.file : StateM (Recorded σ) _).run r = (read, t)) :
      t.accesses = .read file read :: r.accesses := by
    rw [← h.file_eq]
    exact Recorded.accesses_readBytes hrun
  cases hloading with
  | memory hseen =>
    refine ⟨h, fun seen hok => ⟨?_, id⟩, fun error herror => absurd herror (by simp)⟩
    rwa [← Except.ok.inj hok]
  | missing _ hrun =>
    refine ⟨h.set_empty r', fun seen hok => ⟨?_, fun hunharmed => ?_⟩,
      fun error herror => absurd herror (by simp)⟩
    · rw [Except.ok.inj hok]
    · exact hunharmed.of_cons (hread hrun) fun hfault => hfault.2 rfl
  | unreadable hunread hrun _ =>
    refine ⟨h.of_cons (hread hrun) id, fun seen hok => absurd hok (by simp), fun _ _ seen hseen => ?_⟩
    rw [hunread] at hseen
    exact absurd hseen (by simp)
  | @decoded bytes values _ _ hrun hdecode =>
    refine ⟨h.set_seen fun mark hmark => ?_, fun seen hok => ⟨?_, fun hunharmed => ?_⟩,
      fun error herror => absurd herror (by simp)⟩
    · rw [hread hrun]
      exact gained_of_brings (.inl ⟨bytes, values, rfl, hdecode, OrderedSet.mem_ofList.mp hmark⟩)
    · rw [Except.ok.inj hok]
    · exact hunharmed.of_cons (hread hrun) id
  | discarded hunread hrun _ hlog hflushing =>
    have hbefore : Sourced file lockFile degraded offered origin marks _ :=
      (h.of_cons (hread hrun) id).of_log (Recorded.accesses_log hlog)
    obtain ⟨hsourced, hempty, hharmless⟩ := flushing_sourced hflushing hbefore
    refine ⟨hsourced, fun seen hok => ?_, fun error _ seen hseen => ?_⟩
    · cases hflushing with
      | stuck => exact absurd hok (by simp [Except.map])
      | cleared =>
        refine ⟨hempty.trans (congrArg some (Except.ok.inj hok)), fun hunharmed => ?_⟩
        exact hharmless rfl ((hunharmed.of_cons (hread hrun) id).of_log (Recorded.accesses_log hlog))
    · exact Option.some.inj (hseen.symm.trans hempty)

/-- The set in memory is written. Marks that are allowed to be put there are gained by this, if it ends
well. -/
theorem writing_sourced (offered : String → Prop) (origin : Option (OrderedSet String))
    {result : Except MarksError Unit} (hwriting : Writing marks r result r') (hfile : marks.file = file) :
    (∀ mark, Gained file offered origin r.accesses mark →
      Gained file offered origin r'.accesses mark) ∧
      (result = .ok () → (Unharmed file r → Unharmed file r') ∧
        ∀ seen, marks.seen = some seen → ∀ mark ∈ seen, offered mark →
          Gained file offered origin r'.accesses mark) := by
  subst hfile
  cases hwriting with
  | blocked hmade =>
    refine ⟨fun mark hmark => ?_, fun hok => absurd hok (by simp)⟩
    rw [Recorded.accesses_createDirectories hmade]
    exact hmark.cons id
  | failed hmade hplaced =>
    refine ⟨fun mark hmark => ?_, fun hok => absurd hok (by simp)⟩
    rw [Recorded.accesses_replaceFile hplaced, Recorded.accesses_createDirectories hmade]
    exact (hmark.cons id).cons id
  | written hmade hplaced =>
    refine ⟨fun mark hmark => ?_, fun _ => ⟨fun hunharmed => ?_, fun seen hseen mark hmark hoffered => ?_⟩⟩
    · rw [Recorded.accesses_replaceFile hplaced, Recorded.accesses_createDirectories hmade]
      exact (hmark.cons id).cons id
    · have hmade' := hunharmed.of_cons (Recorded.accesses_createDirectories hmade) id
      exact hmade'.of_cons (Recorded.accesses_replaceFile hplaced) id
    · rw [Recorded.accesses_replaceFile hplaced, hseen]
      exact gained_of_brings (.inr ⟨hoffered, seen, rfl, hmark⟩)

/-! ### Programs -/

theorem sourced_contains {result : Except MarksError Bool}
    (h : Sourced file lockFile degraded offered origin marks r)
    (hrun : ((contains mark : Step (StateM (Recorded σ)) Bool).run.run marks).run r
      = ((result, marks'), r')) :
    Sourced file lockFile degraded offered origin marks' r' := by
  rcases hload : ((storage : Step (StateM (Recorded σ)) _).run.run marks).run r
    with ⟨⟨loaded, marks₁⟩, r₁⟩
  obtain ⟨hsourced, -⟩ := loading_sourced (loading_of_run hload) h
  rw [contains, run_bind_run, hload] at hrun
  cases loaded with
  | error error =>
    obtain ⟨-, rfl, rfl⟩ := outcome_inj hrun
    exact hsourced
  | ok found =>
    obtain ⟨-, rfl, rfl⟩ := outcome_inj hrun
    exact hsourced

/-- A mark that was to be taken back is not in the set afterwards, even if that could not be written. -/
theorem sourced_forget {result : Except MarksError Unit}
    (h : Sourced file lockFile degraded offered origin marks r)
    (hrun : ((forget mark : Step (StateM (Recorded σ)) Unit).run.run marks).run r
      = ((result, marks'), r')) :
    Sourced file lockFile degraded offered origin marks' r' ∧
      ∀ seen, marks'.seen = some seen → mark ∉ seen := by
  rcases hload : ((storage : Step (StateM (Recorded σ)) _).run.run marks).run r
    with ⟨⟨loaded, marks₁⟩, r₁⟩
  obtain ⟨hsourced, hloaded, hempty⟩ := loading_sourced (loading_of_run hload) h
  rw [forget, run_bind_run, hload] at hrun
  cases loaded with
  | error error =>
    obtain ⟨-, rfl, rfl⟩ := outcome_inj hrun
    refine ⟨hsourced, fun seen hseen => ?_⟩
    rw [hempty error rfl seen hseen]
    exact OrderedSet.not_mem_empty mark
  | ok found =>
    obtain ⟨hseen, -⟩ := hloaded found rfl
    dsimp only at hrun
    split at hrun
    · rw [run_modify_bind] at hrun
      obtain ⟨rfl, hwriting⟩ := writing_of_run hrun
      obtain ⟨hkept, -⟩ := writing_sourced offered origin hwriting hsourced.file_eq
      refine ⟨hsourced.set_seen fun other hother => hkept other ?_, fun seen hseen' => ?_⟩
      · exact hsourced.gained found hseen other ((OrderedSet.mem_erase ..).mp hother).1
      · rw [← Option.some.inj hseen']
        exact fun hin => ((OrderedSet.mem_erase ..).mp hin).2 rfl
    · next hout =>
      obtain ⟨-, rfl, rfl⟩ := outcome_inj hrun
      refine ⟨hsourced, fun seen hseen' hin => hout ?_⟩
      rw [hseen] at hseen'
      rw [Option.some.inj hseen']
      exact decide_eq_true hin

/-- Marks that have met no fault so far. -/
def Untroubled (file lockFile : Path) (offered : String → Prop)
    (origin : Option (OrderedSet String)) (marks : Marks) (r : Recorded σ) : Prop :=
  Sourced file lockFile false offered origin marks r ∧ Unharmed file r

/-- The set is in memory and holds a mark. -/
def Holds (mark : String) (marks : Marks) : Prop := ∃ seen, marks.seen = some seen ∧ mark ∈ seen

theorem untroubled_storage : Yields (Untroubled (σ := σ) file lockFile offered origin) storage
    fun found marks r => marks.seen = some found ∧ Untroubled file lockFile offered origin marks r := by
  intro marks r found marks' r' h hrun
  obtain ⟨hsourced, hunharmed⟩ := h
  obtain ⟨hsourced', hloaded, -⟩ := loading_sourced (loading_of_run hrun) hsourced
  obtain ⟨hseen, hharmless⟩ := hloaded found rfl
  exact ⟨hseen, hsourced', hharmless hunharmed⟩

theorem untroubled_flush : Yields (Untroubled (σ := σ) file lockFile offered origin) flush
    fun _ => Untroubled file lockFile offered origin := by
  intro marks r _ marks' r' h hrun
  obtain ⟨hsourced, hunharmed⟩ := h
  obtain ⟨hsourced', -, hharmless⟩ := flushing_sourced (flushing_of_run hrun) hsourced
  exact ⟨hsourced', hharmless rfl hunharmed⟩

theorem untroubled_synchronize (hoffered : offered mark) :
    Yields (Untroubled (σ := σ) file lockFile offered origin) (synchronize mark)
      fun _ marks r => Holds mark marks ∧ Untroubled file lockFile offered origin marks r := by
  refine Yields.bind untroubled_storage fun found => ?_
  intro marks r _ marks' r' h hrun
  obtain ⟨hseen, hsourced, hunharmed⟩ := h
  rw [run_modify_bind] at hrun
  obtain ⟨rfl, hwriting⟩ := writing_of_run hrun
  obtain ⟨hkept, hwritten⟩ := writing_sourced offered origin hwriting hsourced.file_eq
  obtain ⟨hharmless, hput⟩ := hwritten rfl
  have hin : mark ∈ found.insert mark := (OrderedSet.mem_insert ..).mpr (.inr rfl)
  refine ⟨⟨_, rfl, hin⟩, hsourced.set_seen fun other hother => ?_, hharmless hunharmed⟩
  rcases (OrderedSet.mem_insert ..).mp hother with hold | rfl
  · exact hkept other (hsourced.gained found hseen other hold)
  · exact hput _ rfl other hin hoffered

/-- After a check that ends well the fingerprint is in the set, new or not. -/
theorem untroubled_check {lock fingerprint : String} (hlock : offered lock)
    (hfingerprint : offered fingerprint) :
    Yields (Untroubled (σ := σ) file lockFile offered origin) (check lock fingerprint)
      fun _ marks r => Holds fingerprint marks ∧
        Untroubled file lockFile offered origin marks r := by
  -- The second half of a check is the same whether or not the marks were flushed before.
  have hask : Yields (Untroubled (σ := σ) file lockFile offered origin) (do
      if (← storage).contains fingerprint then return false
      synchronize fingerprint
      return true)
      fun _ marks r => Holds fingerprint marks ∧
        Untroubled file lockFile offered origin marks r := by
    refine Yields.bind untroubled_storage fun found => ?_
    split
    · next hin =>
      exact Yields.pure fun marks r h => ⟨⟨found, h.1, of_decide_eq_true hin⟩, h.2⟩
    · have hsync := (untroubled_synchronize (σ := σ) hfingerprint).mono
        (fun marks r (h : marks.seen = some found ∧
          Untroubled file lockFile offered origin marks r) => h.2)
      exact Yields.bind hsync fun _ => Yields.pure fun _ _ h => h
  refine Yields.bind untroubled_storage fun found => ?_
  simp only
  split
  · have hlog : Yields (fun marks r => marks.seen = some found ∧
          Untroubled (σ := σ) file lockFile offered origin marks r)
        (host (Host.debug "lock artifact changed; flushing cache" [("indicator", lock)]))
        fun _ => Untroubled file lockFile offered origin := by
      refine Yields.lift fun marks r _ r' h hlogged => ?_
      obtain ⟨-, hsourced, hunharmed⟩ := h
      have hrecord := Recorded.accesses_log hlogged
      exact ⟨hsourced.of_log hrecord, hunharmed.of_log hrecord⟩
    refine Yields.bind hlog fun _ => Yields.bind untroubled_flush fun _ => ?_
    refine Yields.bind (untroubled_synchronize hlock) fun _ => ?_
    exact hask.mono fun _ _ h => h.2
  · exact hask.mono fun _ _ h => h.2

end

/-! ## 4. Turns -/

/-- A request, its reply, and what was done to files in between, latest first. -/
structure Turn where
  request : Request
  reply : Reply
  accesses : List Access

namespace Turn

/-- The uses of the file of the marks: all but the first one of a question, which is for the lock file.
The two files may be the same. -/
def storage (turn : Turn) : List Access :=
  match turn.request with
  | .isNew _ => turn.accesses.dropLast
  | _ => turn.accesses

/-- It was asked whether a fingerprint is new. -/
def IsQuestion (turn : Turn) : Prop := ∃ fingerprint, turn.request = .isNew fingerprint

/-- A question met a fault of the file of the marks. -/
def MeetsFault (file : Path) (turn : Turn) : Prop :=
  turn.IsQuestion ∧ ∃ access ∈ turn.storage, access.IsFault file

/-- What a question may put into the set: the fingerprint, and the digest of what it read in the lock
file. -/
def Offers (lockFile : Path) (turn : Turn) (mark : String) : Prop :=
  turn.request = .isNew mark ∨
    ∃ fingerprint bytes, turn.request = .isNew fingerprint ∧
      turn.accesses.getLast? = some (.read lockFile (.ok bytes)) ∧ mark = Sha256.hexDigest bytes

/-- A mark was found in the file, or put into the set and written, and the file was not deleted after
that. -/
def Takes (file lockFile : Path) (mark : String) (turn : Turn) : Prop :=
  turn.request ≠ .forget mark ∧
    Since (Access.Brings file (turn.Offers lockFile) mark) (fun access => ¬ access.IsRemoval file)
      turn.storage

/-- A mark was not flushed, and nobody took it back. -/
def Spares (file : Path) (mark : String) (turn : Turn) : Prop :=
  turn.request ≠ .forget mark ∧ turn.request ≠ .flush ∧
    ∀ access ∈ turn.storage, ¬ access.IsRemoval file

end Turn

variable {turn : Turn} {history : List Turn} {s s' : σ}

/-- What a turn can come to. -/
structure Turned (marks : Marks) (turn : Turn) (marks' : Marks) : Prop where
  /-- Once a fault was met, every fingerprint is new. -/
  degraded : marks.degraded = true →
    marks'.degraded = true ∧ (turn.IsQuestion → turn.reply = .fresh true)
  /-- A fault is met. -/
  fault : marks.degraded = false → turn.MeetsFault marks.file →
    marks'.degraded = true ∧ turn.reply = .fresh true
  /-- Every mark in the set was taken now, or was there before and spared. -/
  sound : marks'.degraded = false → marks'.file = marks.file ∧ marks'.lockFile = marks.lockFile ∧
    ∀ seen, marks'.seen = some seen → ∀ mark ∈ seen,
      turn.Takes marks.file marks.lockFile mark ∨
        (turn.Spares marks.file mark ∧ Holds mark marks)
  /-- A fingerprint that is not new is in the set. -/
  clean : ∀ mark, turn.request = .isNew mark → turn.reply = .fresh false →
    marks'.degraded = false ∧ Holds mark marks'

/-- How a mark was gained is told of the whole turn. -/
theorem takes_or_spares (hrequest : turn.request ≠ .forget mark ∧ turn.request ≠ .flush)
    (h : Gained file (turn.Offers lockFile) marks.seen turn.storage mark) :
    turn.Takes file lockFile mark ∨ (turn.Spares file mark ∧ Holds mark marks) := by
  rcases h with hsince | ⟨hall, horigin⟩
  · exact .inl ⟨hrequest.1, hsince⟩
  · exact .inr ⟨⟨hrequest.1, hrequest.2, hall⟩, horigin⟩

/-- As long as only the lock file was read, nothing has happened. -/
theorem turned_idle {fingerprint : String} {result : Except FileError ByteArray} (marks : Marks) :
    Turned marks ⟨.isNew fingerprint, .fresh true, [.read marks.lockFile result]⟩ marks := by
  refine ⟨fun hdegraded => ⟨hdegraded, fun _ => rfl⟩, fun _ hfault => ?_, fun _ => ?_,
    fun mark _ hreply => absurd hreply (by simp)⟩
  · obtain ⟨-, access, hin, -⟩ := hfault
    exact absurd hin List.not_mem_nil
  · refine ⟨rfl, rfl, fun seen hseen mark hmark => ?_⟩
    refine takes_or_spares ⟨by simp, by simp⟩ (.inr ⟨fun _ hin => ?_, seen, hseen, hmark⟩)
    exact absurd hin List.not_mem_nil

variable [Host (StateM σ)]

/-- What a check comes to that succeeds. Its uses of the file are those of the turn without the first
one. -/
theorem turned_checked {fingerprint : String} {fresh : Bool} {bytes : ByteArray} {t : σ}
    {rest : List Access} (hsound : marks.degraded = false)
    (hrun : ((check (Sha256.hexDigest bytes) fingerprint : Step (StateM (Recorded σ)) Bool).run.run
      marks).run ⟨t, []⟩ = ((.ok fresh, marks'), ⟨s', rest⟩)) :
    Turned marks ⟨.isNew fingerprint, .fresh fresh,
      rest ++ [.read marks.lockFile (.ok bytes)]⟩ marks' := by
  have hstorage : Turn.storage ⟨.isNew fingerprint, .fresh fresh,
      rest ++ [.read marks.lockFile (.ok bytes)]⟩ = rest := List.dropLast_concat
  have hlast : (rest ++ [Access.read marks.lockFile (.ok bytes)]).getLast?
      = some (.read marks.lockFile (.ok bytes)) := List.getLast?_concat ..
  have hstart := sourced_start marks (Turn.Offers marks.lockFile ⟨.isNew fingerprint, .fresh fresh,
    rest ++ [.read marks.lockFile (.ok bytes)]⟩) t
  rw [hsound] at hstart
  have hunharmed : Unharmed marks.file (⟨t, []⟩ : Recorded σ) :=
    fun _ hin => absurd hin List.not_mem_nil
  obtain ⟨hholds, hsourced, hunharmed'⟩ := untroubled_check
    (.inr ⟨fingerprint, bytes, rfl, hlast, rfl⟩) (.inl rfl) ⟨hstart, hunharmed⟩ hrun
  refine ⟨fun hdegraded => ?_, fun _ hfault => ?_, fun _ => ?_, fun mark hasked _ => ?_⟩
  · rw [hsound] at hdegraded
    exact absurd hdegraded (by simp)
  · obtain ⟨-, access, hin, hfault⟩ := hfault
    rw [hstorage] at hin
    exact absurd hfault (hunharmed' access hin)
  · refine ⟨hsourced.file_eq, hsourced.lockFile_eq, fun seen hseen mark hmark => ?_⟩
    refine takes_or_spares ⟨by simp, by simp⟩ ?_
    rw [hstorage]
    exact hsourced.gained seen hseen mark hmark
  · obtain rfl := Request.isNew.inj hasked
    exact ⟨hsourced.degraded_eq, hholds⟩

theorem turned_isNew {fingerprint : String} {fresh : Bool} {accesses : List Access}
    (h : Asking marks fingerprint (⟨s, []⟩ : Recorded σ) fresh marks' ⟨s', accesses⟩) :
    Turned marks ⟨.isNew fingerprint, .fresh fresh, accesses⟩ marks' := by
  cases h with
  | @unlocked error _ _ _ hread hlogged =>
    have hrecord : accesses = [.read marks.lockFile (.error error)] := by
      have hlog := Recorded.accesses_log hlogged
      rwa [Recorded.accesses_readBytes hread] at hlog
    rw [hrecord]
    exact turned_idle marks
  | @degraded bytes _ hread =>
    have hrecord : accesses = [.read marks.lockFile (.ok bytes)] :=
      Recorded.accesses_readBytes hread
    rw [hrecord]
    exact turned_idle marks
  | @checked bytes _ _ t _ hread hsound hcheck =>
    obtain ⟨state, record⟩ := t
    have hlock : record = [.read marks.lockFile (.ok bytes)] := Recorded.accesses_readBytes hread
    subst hlock
    obtain ⟨rest, hrun, haccesses⟩ := (traces_check _ _ marks).run_nil hcheck
    have hrest : accesses = rest ++ [.read marks.lockFile (.ok bytes)] := haccesses
    rw [hrest]
    exact turned_checked hsound hrun
  | failed _ hsound =>
    refine ⟨fun _ => ⟨rfl, fun _ => rfl⟩, fun _ _ => ⟨rfl, rfl⟩, fun hdegraded => ?_,
      fun mark _ hreply => absurd hreply (by simp)⟩
    exact absurd hdegraded (by simp)

omit [Host (StateM σ)] in
/-- The other requests leave the flag of a fault alone. -/
theorem turned_of_sourced {request : Request} {reply : Reply} {r' : Recorded σ}
    (hquestion : ∀ mark, request ≠ .isNew mark)
    (h : Sourced marks.file marks.lockFile marks.degraded
      (Turn.Offers marks.lockFile ⟨request, reply, r'.accesses⟩) marks.seen marks' r')
    (hrequest : ∀ seen, marks'.seen = some seen → ∀ mark ∈ seen,
      request ≠ .forget mark ∧ request ≠ .flush) :
    Turned marks ⟨request, reply, r'.accesses⟩ marks' := by
  have hstorage : Turn.storage ⟨request, reply, r'.accesses⟩ = r'.accesses := by
    cases request with
    | isNew mark => exact absurd rfl (hquestion mark)
    | _ => rfl
  refine ⟨fun hdegraded => ⟨h.degraded_eq.trans hdegraded, fun hasked => ?_⟩, fun _ hfault => ?_,
    fun _ => ?_, fun mark hasked _ => absurd hasked (hquestion mark)⟩
  · obtain ⟨mark, hasked⟩ := hasked
    exact absurd hasked (hquestion mark)
  · obtain ⟨⟨mark, hasked⟩, -⟩ := hfault
    exact absurd hasked (hquestion mark)
  · refine ⟨h.file_eq, h.lockFile_eq, fun seen hseen mark hmark => ?_⟩
    refine takes_or_spares (hrequest seen hseen mark hmark) ?_
    rw [hstorage]
    exact h.gained seen hseen mark hmark

/-- The step lemma. -/
theorem turned_of_run {request : Request} {reply : Reply} {r' : Recorded σ}
    (hrun : (marks.answer request : StateM (Recorded σ) _).run ⟨s, []⟩ = ((reply, marks'), r')) :
    Turned marks ⟨request, reply, r'.accesses⟩ marks' := by
  have hstart (offered : String → Prop) := sourced_start marks offered s
  cases answering_of_run hrun with
  | isNew hasking => exact turned_isNew hasking
  | contains hcontains =>
    refine turned_of_sourced (fun mark => by simp) (sourced_contains (hstart _) hcontains) ?_
    exact fun _ _ mark _ => ⟨by simp, by simp⟩
  | @forget mark _ _ _ hforget =>
    obtain ⟨hsourced, hgone⟩ := sourced_forget (hstart _) hforget
    refine turned_of_sourced (fun mark => by simp) hsourced fun seen hseen other hother => ?_
    refine ⟨fun heq => ?_, by simp⟩
    obtain rfl := Request.forget.inj heq
    exact hgone seen hseen hother
  | flush hflush =>
    obtain ⟨hsourced, hempty, -⟩ := flushing_sourced (flushing_of_run hflush) (hstart _)
    refine turned_of_sourced (fun mark => by simp) hsourced fun seen hseen other hother => ?_
    rw [hempty] at hseen
    rw [← Option.some.inj hseen] at hother
    exact absurd hother (OrderedSet.not_mem_empty other)

/-! ## 5. Lives -/

/-- The life of marks from when they are made, on a machine that may fail as it pleases and to which
anything may happen between the turns. The latest turn comes first. -/
inductive Life (file lockFile : Path) : List Turn → Marks → σ → Prop
  | new (s : σ) : Life file lockFile [] (.new file lockFile) s
  | others {history : List Turn} {marks : Marks} {s : σ} (before : Life file lockFile history marks s)
      (s' : σ) : Life file lockFile history marks s'
  | turn {history : List Turn} {marks marks' : Marks} {s s' : σ} {request : Request} {reply : Reply}
      {accesses : List Access} (before : Life file lockFile history marks s)
      (run : (marks.answer request : StateM σ _).run s = ((reply, marks'), s'))
      (recorded : ((marks.answer request : StateM (Recorded σ) _).run ⟨s, []⟩).2.accesses
        = accesses) :
      Life file lockFile (⟨request, reply, accesses⟩ :: history) marks' s'

theorem Life.isNew {fingerprint : String} {fresh : Bool} (before : Life file lockFile history marks s)
    (hrun : (marks.isNew fingerprint : StateM σ _).run s = ((fresh, marks'), s')) :
    Life file lockFile (⟨.isNew fingerprint, .fresh fresh,
      ((marks.answer (.isNew fingerprint) : StateM (Recorded σ) _).run ⟨s, []⟩).2.accesses⟩ :: history)
      marks' s' := by
  have hanswer : (marks.answer (.isNew fingerprint) : StateM σ _).run s
      = ((.fresh fresh, marks'), s') := by
    rw [answer, run_bind, hrun]
    rfl
  exact .turn before hanswer rfl

/-- The record of a turn is one of the very run that replied. -/
theorem run_recorded {request : Request} {reply : Reply} {accesses : List Access}
    (hrun : (marks.answer request : StateM σ _).run s = ((reply, marks'), s'))
    (hrecorded : ((marks.answer request : StateM (Recorded σ) _).run ⟨s, []⟩).2.accesses = accesses) :
    (marks.answer request : StateM (Recorded σ) _).run ⟨s, []⟩
      = ((reply, marks'), ⟨s', accesses⟩) := by
  obtain ⟨record, hall⟩ := follows_answer marks request s
  have hnil := hall []
  rw [hrun, List.append_nil] at hnil
  rw [hnil] at hrecorded
  rw [hnil, ← hrecorded]

/-- After a life marks know of every fault that a question has met; as long as there was none, every
mark in the set was taken and spared since then. -/
structure Marked (file lockFile : Path) (history : List Turn) (marks : Marks) : Prop where
  fault : ∀ turn ∈ history, turn.MeetsFault file → marks.degraded = true
  sound : marks.degraded = false → marks.file = file ∧ marks.lockFile = lockFile ∧
    ∀ mark, Holds mark marks →
      Since (Turn.Takes file lockFile mark) (Turn.Spares file mark) history

omit [Host (StateM σ)] in
theorem Marked.after (h : Marked file lockFile history marks) (hturned : Turned marks turn marks') :
    Marked file lockFile (turn :: history) marks' := by
  refine ⟨fun other hother hfault => ?_, fun hsound => ?_⟩
  · cases hdegraded : marks.degraded with
    | true => exact (hturned.degraded hdegraded).1
    | false =>
      rcases List.mem_cons.mp hother with rfl | hin
      · rw [← (h.sound hdegraded).1] at hfault
        exact (hturned.fault hdegraded hfault).1
      · have hnoted := h.fault other hin hfault
        rw [hdegraded] at hnoted
        exact absurd hnoted (by simp)
  · have hbefore : marks.degraded = false := by
      cases hdegraded : marks.degraded with
      | false => rfl
      | true => rwa [(hturned.degraded hdegraded).1] at hsound
    obtain ⟨hfile, hlockFile, hholds⟩ := h.sound hbefore
    obtain ⟨hfile', hlockFile', hseen⟩ := hturned.sound hsound
    refine ⟨hfile'.trans hfile, hlockFile'.trans hlockFile, fun mark hmark => ?_⟩
    obtain ⟨seen, heq, hin⟩ := hmark
    rw [since_cons_iff]
    have htaken := hseen seen heq mark hin
    rw [hfile, hlockFile] at htaken
    exact htaken.imp_right fun hspared => ⟨hspared.1, hholds mark hspared.2⟩

theorem marked_of_life (h : Life file lockFile history marks s) :
    Marked file lockFile history marks := by
  induction h with
  | new =>
    refine ⟨fun _ hin => absurd hin List.not_mem_nil, fun _ => ⟨rfl, rfl, fun mark hmark => ?_⟩⟩
    obtain ⟨seen, hseen, -⟩ := hmark
    exact absurd hseen (by simp [new])
  | others _ _ ih => exact ih
  | turn _ run recorded ih => exact ih.after (turned_of_run (run_recorded run recorded))

/-- **A fault never makes a fingerprint look seen.** Whatever fails on a machine and whatever happens to
it between the turns: a question that meets a fault of the file of the marks, and every later question,
is answered with new; and a fingerprint that is not new was found in the file, or put into the set and
written there, in a turn since when it was neither flushed nor taken back. -/
theorem fault_never_clean (h : Life file lockFile history marks s) :
    (∀ turn ∈ history, turn.MeetsFault file → turn.reply = .fresh true) ∧
      (history.Pairwise fun later earlier =>
        earlier.MeetsFault file → later.IsQuestion → later.reply = .fresh true) ∧
      ∀ mark accesses earlier, ⟨.isNew mark, .fresh false, accesses⟩ :: earlier <:+ history →
        Since (Turn.Takes file lockFile mark) (Turn.Spares file mark)
          (⟨.isNew mark, .fresh false, accesses⟩ :: earlier) := by
  induction h with
  | new =>
    refine ⟨fun _ hin => absurd hin List.not_mem_nil, List.Pairwise.nil, fun _ _ _ hsuffix => ?_⟩
    exact absurd (List.suffix_nil.mp hsuffix) (by simp)
  | others _ _ ih => exact ih
  | @turn history marks marks' s s' request reply accesses before run recorded ih =>
    obtain ⟨hfault, hlater, hclean⟩ := ih
    have hmarked := marked_of_life before
    have hturned := turned_of_run (run_recorded run recorded)
    refine ⟨List.forall_mem_cons.mpr ⟨fun hmeets => ?_, hfault⟩,
      List.pairwise_cons.mpr ⟨fun earlier hin hmeets hasked => ?_, hlater⟩,
      fun mark noted earlier hsuffix => ?_⟩
    · cases hdegraded : marks.degraded with
      | true => exact (hturned.degraded hdegraded).2 hmeets.1
      | false =>
        rw [← (hmarked.sound hdegraded).1] at hmeets
        exact (hturned.fault hdegraded hmeets).2
    · exact (hturned.degraded (hmarked.fault earlier hin hmeets)).2 hasked
    · rcases List.suffix_cons_iff.mp hsuffix with heq | hsuffix
      · obtain ⟨hhead, rfl⟩ := List.cons.inj heq
        obtain ⟨hrequest, hreply, -⟩ := Turn.mk.inj hhead
        obtain ⟨hsound, hholds⟩ := hturned.clean mark hrequest.symm hreply.symm
        rw [heq]
        exact ((hmarked.after hturned).sound hsound).2.2 mark hholds
      · exact hclean mark noted earlier hsuffix

/-- A machine with a lock file, and a file of marks that knows a fingerprint under it. -/
def markedWorld : World where
  tree := (FileTree.empty.insert ["lock"] (.file "x".toUTF8)).insert ["cache.json"]
    (.file (content (.ofList [Sha256.hexDigest "x".toUTF8, "f"])))
  cwd := []
  temporary := ⟨"tmp"⟩
  events := []

/-- Somebody puts a directory in the place of the file of marks. -/
def blockFile (w : World) : World :=
  { w with tree := w.tree.insert ["cache.json"] .directory }

/-- A fingerprint is not new because it was found in the file. When another one cannot be written, that
one is new, and so is the first one from then on. -/
theorem fault_never_clean_blocked :
    ∃ first second third marks w,
      Life ⟨"cache.json"⟩ ⟨"lock"⟩ [third, second, first] marks (w : World) ∧
        [first, second, third].map Turn.request = [.isNew "f", .isNew "g", .isNew "f"] ∧
        [first, second, third].map Turn.reply = [.fresh false, .fresh true, .fresh true] ∧
        Since (Turn.Takes ⟨"cache.json"⟩ ⟨"lock"⟩ "f") (Turn.Spares ⟨"cache.json"⟩ "f") [first] := by
  rcases hfirst : ((Marks.new ⟨"cache.json"⟩ ⟨"lock"⟩).isNew "f" : StateM World _).run markedWorld
    with ⟨⟨fresh, marks⟩, w⟩
  rcases hsecond : (marks.isNew "g" : StateM World _).run (blockFile w) with ⟨⟨fresh', marks'⟩, w'⟩
  rcases hthird : (marks'.isNew "f" : StateM World _).run w' with ⟨⟨fresh'', marks''⟩, w''⟩
  have houtcome :
      let found := ((Marks.new ⟨"cache.json"⟩ ⟨"lock"⟩).isNew "f" : StateM World _).run markedWorld
      found.1.1 = false ∧
        ∃ access ∈ ((found.1.2.answer (.isNew "g") : StateM (Recorded World) _).run
          ⟨blockFile found.2, []⟩).2.accesses.dropLast, access.IsFault ⟨"cache.json"⟩ := by
    decide +kernel
  obtain ⟨hfound, hfault⟩ := houtcome
  rw [hfirst] at hfound hfault
  obtain rfl : fresh = false := hfound
  have hlife := (((Life.new markedWorld).isNew hfirst).others (blockFile w)).isNew hsecond
  obtain ⟨hmet, hlater, hclean⟩ := fault_never_clean (hlife.isNew hthird)
  have hmeets : Turn.MeetsFault ⟨"cache.json"⟩ ⟨.isNew "g", .fresh fresh', _⟩ := ⟨⟨"g", rfl⟩, hfault⟩
  have hreply : fresh' = true :=
    Reply.fresh.inj (hmet _ (List.mem_cons_of_mem _ List.mem_cons_self) hmeets)
  have hreply' : fresh'' = true :=
    Reply.fresh.inj ((List.pairwise_cons.mp hlater).1 _ List.mem_cons_self hmeets ⟨"f", rfl⟩)
  refine ⟨_, _, _, _, _, hlife.isNew hthird, rfl, ?_, hclean "f" _ [] ⟨[_, _], rfl⟩⟩
  rw [hreply, hreply']
  rfl

end Marks

end Graft
