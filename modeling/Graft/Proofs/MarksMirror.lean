/-
The file of marks and its image in memory.

Marks read their file when they first need it and then work on an image in memory, which is written
back whenever it changes. Nothing is lost between the two: while no use of the file fails and nobody
else writes it, an image in memory is always what reading the file would give. So it makes no
difference whether marks are kept for long or opened anew before any request; they give the same
replies and leave the same files.

The main statement is `Marks.play_eq_of_reopened`.
-/
import Graft.Proofs.MarksHistory
import Graft.Proofs.MarksSteps
import Graft.Proofs.JsonText
import Graft.Proofs.Orderly

set_option autoImplicit false

namespace Graft

namespace Marks

variable {file lockFile : Path} {seen : OrderedSet String} {marks marks' : Marks} {w w' : World}

/-! ## 1. What the file holds -/

/-- The set that marks find in their file: a missing file holds none, and one that cannot be read or
holds something else gives no set. -/
def stored? (file : Path) (w : World) : Option (OrderedSet String) :=
  match w.tree.readBytes w.cwd file with
  | .ok bytes => (Json.ofBytes? bytes : Option (List String)).map .ofList
  | .error .notFound => some .empty
  | .error _ => none

theorem stored?_of_missing (h : w.tree.readBytes w.cwd file = .error .notFound) :
    stored? file w = some .empty := by
  rw [stored?, h]

theorem stored?_of_decoded {bytes : ByteArray} {values : List String}
    (h : w.tree.readBytes w.cwd file = .ok bytes)
    (hdecode : (Json.ofBytes? bytes : Option (List String)) = some values) :
    stored? file w = some (.ofList values) := by
  rw [stored?, h]
  dsimp only
  rw [hdecode]
  rfl

/-- A file that was deleted, or was not there to be deleted, holds the empty set. -/
theorem stored?_of_removeFile {removed : Except FileError Unit}
    (h : (Host.removeFile file : StateM World _).run w = (removed, w'))
    (hgone : removed = .ok () ∨ removed = .error .notFound) : stored? file w' = some .empty := by
  apply stored?_of_missing
  rw [World.run_removeFile] at h
  cases hremove : w.tree.removeFile w.cwd file with
  | ok tree =>
    rw [World.run_change_of_ok hremove] at h
    obtain ⟨-, rfl⟩ := Prod.mk.inj h
    exact FileTree.readBytes_of_removeFile hremove
  | error error =>
    have hrun : (World.change fun tree => tree.removeFile w.cwd file).run w = (.error error, w) := by
      show World.change _ w = _
      rw [World.change, hremove]
    rw [hrun] at h
    obtain ⟨rfl, rfl⟩ := Prod.mk.inj h
    have herror : error = .notFound := by simpa using hgone
    rw [herror] at hremove
    exact FileTree.readBytes_of_removeFile_notFound hremove

/-- A set that was written is found again as it was. -/
theorem stored?_of_replaceFile
    (h : (Host.replaceFile file (content seen) : StateM World _).run w = (.ok (), w')) :
    stored? file w' = some seen := by
  rw [World.run_replaceFile] at h
  rcases World.change_cases h with ⟨error, herror, -⟩ | ⟨tree, htree, -, rfl⟩
  · exact absurd herror (by simp)
  · have hread : ({ w with tree := tree } : World).tree.readBytes
        ({ w with tree := tree } : World).cwd file = .ok (content seen) :=
      FileTree.readBytes_of_writeFile (FileTree.writeFile_of_replaceFile htree)
    have hdecode : (Json.ofBytes? (content seen) : Option (List String)) = some seen.toList :=
      Json.ofBytes?_toText seen.toList
    rw [stored?_of_decoded hread hdecode, OrderedSet.ofList_toList]

/-! ## 2. The image is kept -/

/-- Marks without a fault whose image in memory, once there is one, is what their file holds. -/
structure Mirrored (file lockFile : Path) (marks : Marks) (w : World) : Prop
    extends Sane file lockFile marks where
  image : ∀ seen, marks.seen = some seen → stored? file w = some seen

theorem mirrored_new (file lockFile : Path) (w : World) :
    Mirrored file lockFile (.new file lockFile) w :=
  ⟨⟨rfl, rfl, rfl⟩, fun _ hseen => absurd hseen (by simp [new])⟩

/-- Whether the image is right depends on what reading the file gives, and on nothing else. -/
theorem Mirrored.of_same (h : Mirrored file lockFile marks w)
    (hsame : w'.tree.readBytes w'.cwd file = w.tree.readBytes w.cwd file) :
    Mirrored file lockFile marks w' := by
  have hstored : stored? file w' = stored? file w := by rw [stored?, stored?, hsame]
  exact ⟨h.toSane, fun seen hseen => hstored.trans (h.image seen hseen)⟩

theorem Sane.set_seen (h : Sane file lockFile marks) (seen : OrderedSet String) :
    Sane file lockFile { marks with seen := some seen } := ⟨h.file_eq, h.lockFile_eq, h.sound⟩

/-- A set in memory that is the one of the file. -/
theorem Sane.mirrored (h : Sane file lockFile marks) (hstored : stored? file w = some seen) :
    Mirrored file lockFile { marks with seen := some seen } w :=
  ⟨h.set_seen seen, fun _ hfound => hstored.trans hfound⟩

theorem mirrors_flush : Yields (fun marks _ => Sane file lockFile marks) flush
    fun _ => Mirrored file lockFile := by
  intro marks w _ marks' w' hsane hrun
  cases flushing_of_run hrun with
  | cleared hremove hgone =>
    rw [hsane.file_eq] at hremove
    exact hsane.mirrored (stored?_of_removeFile hremove hgone)

/-- When the set is needed it is read, unless it was before; then it is in memory as the file holds
it. -/
theorem mirrors_storage : Yields (Mirrored file lockFile) storage
    fun found marks w => marks.seen = some found ∧ Mirrored file lockFile marks w := by
  intro marks w found marks' w' hmirrored hrun
  have hread {read : Except FileError ByteArray} {w₁ : World}
      (h : (Host.readBytes marks.file : StateM World _).run w = (read, w₁)) :
      w₁ = w ∧ w.tree.readBytes w.cwd file = read := by
    rw [hmirrored.file_eq] at h
    obtain ⟨rfl, rfl⟩ := Prod.mk.inj h
    exact ⟨rfl, rfl⟩
  generalize hresult : (Except.ok found : Except MarksError _) = result at hrun
  cases loading_of_run hrun with
  | memory hseen =>
    obtain rfl := Except.ok.inj hresult
    exact ⟨hseen, hmirrored⟩
  | missing _ h =>
    obtain rfl := Except.ok.inj hresult
    obtain ⟨rfl, hmissing⟩ := hread h
    exact ⟨rfl, hmirrored.toSane.mirrored (stored?_of_missing hmissing)⟩
  | unreadable => exact absurd hresult (by simp)
  | decoded _ h hdecode =>
    obtain rfl := Except.ok.inj hresult
    obtain ⟨rfl, hbytes⟩ := hread h
    exact ⟨rfl, hmirrored.toSane.mirrored (stored?_of_decoded hbytes hdecode)⟩
  | discarded _ _ _ _ hflushing =>
    cases hflushing with
    | cleared hremove hgone =>
      obtain rfl := Except.ok.inj hresult
      rw [hmirrored.file_eq] at hremove
      exact ⟨rfl, hmirrored.toSane.mirrored (stored?_of_removeFile hremove hgone)⟩
    | stuck => exact absurd hresult (by simp [Except.map])

/-- After the set was written the file holds it, whatever was in the file before. -/
theorem mirrors_persist : Yields (fun marks _ => Sane file lockFile marks) persist
    fun _ => Mirrored file lockFile := by
  intro marks w _ marks' w' hsane hrun
  obtain ⟨rfl, hwriting⟩ := writing_of_run hrun
  cases hwriting with
  | written _ hplaced =>
    rw [hsane.file_eq] at hplaced
    have hstored := stored?_of_replaceFile hplaced
    refine ⟨hsane, fun seen hseen => ?_⟩
    rwa [hseen] at hstored

/-- The set in memory is exchanged and written. -/
theorem mirrors_exchange (seen : OrderedSet String) :
    Yields (fun marks _ => Sane file lockFile marks)
      (do
        modify fun marks => { marks with seen := some seen }
        persist)
      fun _ => Mirrored file lockFile := by
  have hset : Yields (fun marks (_ : World) => Sane file lockFile marks)
      (modify fun marks => { marks with seen := some seen } : Step (StateM World) PUnit)
      fun _ marks _ => Sane file lockFile marks :=
    Yields.modify fun _ _ h => h.set_seen seen
  exact Yields.bind hset fun _ => mirrors_persist

theorem mirrors_synchronize (mark : String) :
    Yields (Mirrored file lockFile) (synchronize mark) fun _ => Mirrored file lockFile :=
  Yields.bind mirrors_storage fun _ => (mirrors_exchange _).mono fun _ _ h => h.2.toSane

/-- Adding a mark to a set in memory writes the set, whatever was in the file before. -/
theorem mirrors_synchronize_loaded (mark : String) :
    Yields (Loaded file lockFile seen) (synchronize mark) fun _ => Mirrored file lockFile :=
  Yields.bind (yields_storage.mono fun _ _ => .inl) fun _ =>
    (mirrors_exchange _).mono fun _ _ h => h.2.toSane

theorem mirrors_contains (mark : String) :
    Yields (Mirrored file lockFile) (contains mark) fun _ => Mirrored file lockFile := by
  refine Yields.bind mirrors_storage fun found => ?_
  exact Yields.pure fun _ _ h => h.2

theorem mirrors_forget (mark : String) :
    Yields (Mirrored file lockFile) (forget mark) fun _ => Mirrored file lockFile := by
  refine Yields.bind mirrors_storage fun found => ?_
  split
  · exact (mirrors_exchange _).mono fun _ _ h => h.2.toSane
  · exact Yields.pure fun _ _ h => h.2

/-- The second half of a check is the same whether or not the marks were flushed before. -/
theorem mirrors_ask (fingerprint : String) :
    Yields (Mirrored file lockFile) (do
      if (← storage).contains fingerprint then return false
      synchronize fingerprint
      return true) fun _ => Mirrored file lockFile := by
  refine Yields.bind mirrors_storage fun found => ?_
  split
  · exact Yields.pure fun _ _ h => h.2
  · have hsync : Yields (fun marks w => marks.seen = some found ∧ Mirrored file lockFile marks w)
        (synchronize fingerprint) fun _ => Mirrored file lockFile :=
      (mirrors_synchronize fingerprint).mono fun _ _ h => h.2
    exact Yields.bind hsync fun _ => Yields.pure fun _ _ h => h

/-- Flushing and starting again with the digest of another lock. -/
theorem mirrors_restart (lock fingerprint : String) :
    Yields (fun marks _ => Sane file lockFile marks) (do
      host (Host.debug "lock artifact changed; flushing cache" [("indicator", lock)])
      flush
      synchronize lock
      if (← storage).contains fingerprint then return false
      synchronize fingerprint
      return true : Step (StateM World) Bool) fun _ => Mirrored file lockFile := by
  have hlog : Yields (fun marks (_ : World) => Sane file lockFile marks)
      (host (Host.debug "lock artifact changed; flushing cache" [("indicator", lock)]))
      fun _ marks _ => Sane file lockFile marks :=
    Yields.lift fun _ _ _ _ h _ => h
  refine Yields.bind hlog fun _ => Yields.bind mirrors_flush fun _ => ?_
  exact Yields.bind (mirrors_synchronize lock) fun _ => mirrors_ask fingerprint

theorem mirrors_check (lock fingerprint : String) :
    Yields (Mirrored file lockFile) (check lock fingerprint) fun _ => Mirrored file lockFile := by
  refine Yields.bind mirrors_storage fun found => ?_
  simp only
  split
  · exact (mirrors_restart lock fingerprint).mono fun _ _ h => h.2.toSane
  · exact (mirrors_ask fingerprint).mono fun _ _ h => h.2

/-- A check that adds a mark to a set in memory leaves that set in the file, whatever was in the file
before. -/
theorem mirrors_check_loaded {lock fingerprint : String}
    (hnew : ¬ (lock ∈ seen ∧ fingerprint ∈ seen)) :
    Yields (Loaded file lockFile seen) (check lock fingerprint) fun _ => Mirrored file lockFile := by
  refine Yields.bind (yields_storage.mono fun _ _ => .inl) fun found => ?_
  intro marks w fresh marks' w' h hrun
  obtain ⟨rfl, hloaded⟩ := h
  simp only at hrun
  split at hrun
  · exact mirrors_restart lock fingerprint hloaded.toSane hrun
  · next hlock =>
    have hlock : lock ∈ found := by simpa [OrderedSet.contains] using hlock
    have hout : fingerprint ∉ found := by
      intro hin
      exact hnew ⟨hlock, hin⟩
    have hask : Yields (Loaded file lockFile found) (do
        if (← storage).contains fingerprint then return false
        synchronize fingerprint
        return true) fun _ => Mirrored file lockFile := by
      refine Yields.bind (yields_storage.mono fun _ _ => .inl) fun again => ?_
      intro marks w fresh marks' w' h hrun
      obtain ⟨rfl, hloaded⟩ := h
      rw [if_neg (by simpa [OrderedSet.contains] using hout)] at hrun
      obtain ⟨_, marks₁, w₁, hsync, hrun⟩ := run_bind_run_eq_ok hrun
      have hmirrored := mirrors_synchronize_loaded fingerprint hloaded hsync
      obtain ⟨-, rfl, rfl⟩ := outcome_inj hrun
      exact hmirrored
    exact hask hloaded hrun

/-! ## 3. One answer -/

variable {request : Request} {reply : Reply}

/-- A request was met. The question whether a fingerprint is new always is, as far as its reply
tells. -/
def Reply.Met : Reply → Prop
  | .fresh _ => True
  | .recorded result => ∃ answer, result = .ok answer
  | .changed result => result = .ok ()

deriving instance DecidableEq for Reply

instance : DecidablePred Reply.Met
  | .fresh _ => .isTrue trivial
  | .recorded (.ok answer) => .isTrue ⟨answer, rfl⟩
  | .recorded (.error error) => .isFalse fun ⟨_, h⟩ => absurd h (by simp)
  | .changed result => inferInstanceAs (Decidable (result = .ok ()))

theorem mirrored_answer (h : Mirrored file lockFile marks w)
    (hrun : (marks.answer request : StateM World _).run w = ((reply, marks'), w'))
    (hmet : reply.Met) (hsound : marks'.degraded = false) : Mirrored file lockFile marks' w' := by
  cases answering_of_run hrun with
  | isNew hasking =>
    cases hasking with
    | unlocked hread hlogged =>
      -- Nothing but the log has changed.
      obtain ⟨-, rfl⟩ := Prod.mk.inj hread
      obtain ⟨-, rfl⟩ := Prod.mk.inj hlogged
      exact h.of_same rfl
    | degraded hread =>
      obtain ⟨-, rfl⟩ := Prod.mk.inj hread
      exact h
    | checked hread _ hcheck =>
      obtain ⟨-, rfl⟩ := Prod.mk.inj hread
      exact mirrors_check _ _ h hcheck
    | failed => exact absurd hsound (by simp)
  | contains hcontains =>
    obtain ⟨answer, rfl⟩ := hmet
    exact mirrors_contains _ h hcontains
  | forget hforget =>
    obtain rfl := hmet
    exact mirrors_forget _ h hforget
  | flush hflush =>
    obtain rfl := hmet
    exact mirrors_flush h.toSane hflush

/-- Marks that are opened anew read what marks in use have in memory. -/
theorem run_storage_new (h : stored? file w = some seen) :
    ((storage : Step (StateM World) _).run.run (new file lockFile)).run w
      = ((.ok seen, ⟨file, lockFile, some seen, false⟩), w) := by
  have hrun : ((storage : Step (StateM World) _).run.run (new file lockFile)).run w
      = match ((hydrate : Step (StateM World) _).run.run (new file lockFile)).run w with
        | ((.ok found, marks), w') => ((.ok found, { marks with seen := some found }), w')
        | ((.error error, marks), w') => ((.error error, marks), w') := by
    rw [storage, run_get_bind]
    show ((hydrate >>= _ : Step (StateM World) _).run.run (new file lockFile)).run w = _
    rw [run_bind_run]
    rcases ((hydrate : Step (StateM World) _).run.run (new file lockFile)).run w
      with ⟨⟨_ | _, _⟩, _⟩ <;> rfl
  have hread : (Host.readBytes (new file lockFile).file : StateM World _).run w
      = (w.tree.readBytes w.cwd file, w) := rfl
  rw [hrun, hydrate, run_get_bind, run_host_bind, hread]
  unfold stored? at h
  cases hfile : w.tree.readBytes w.cwd file with
  | ok bytes =>
    rw [hfile] at h
    dsimp only at h ⊢
    obtain ⟨values, hdecode, rfl⟩ := Option.map_eq_some_iff.mp h
    rw [hdecode]
    rfl
  | error error =>
    rw [hfile] at h
    cases error with
    | notFound =>
      obtain rfl := Option.some.inj h
      rfl
    | _ => exact absurd h (by simp)

/-- A program that first needs the set runs alike on both. -/
theorem run_storage_bind {α : Type} (f : OrderedSet String → Step (StateM World) α)
    (h : stored? file w = some seen) :
    ((storage >>= f).run.run (new file lockFile)).run w
      = ((storage >>= f).run.run ⟨file, lockFile, some seen, false⟩).run w := by
  rw [run_bind_run, run_bind_run, run_storage_new h]
  rfl

/-- What can be told of an outcome from outside: what was returned, whether there was a fault, and what
became of the machine. -/
def observed {α : Type} (outcome : (α × Marks) × World) : α × Bool × World :=
  (outcome.1.1, outcome.1.2.degraded, outcome.2)

theorem observed_isNew (lockFile : Path) (fingerprint : String) (h : stored? file w = some seen) :
    observed (((new file lockFile).isNew fingerprint : StateM World _).run w)
      = observed ((isNew ⟨file, lockFile, some seen, false⟩ fingerprint : StateM World _).run w) := by
  have hlock : (Host.readBytes lockFile : StateM World _).run w
      = (w.tree.readBytes w.cwd lockFile, w) := rfl
  rw [isNew, isNew, run_bind, run_bind, new]
  dsimp only
  rw [hlock]
  cases w.tree.readBytes w.cwd lockFile with
  | error error => rfl
  | ok bytes =>
    dsimp only
    have hcheck : ((check (Sha256.hexDigest bytes) fingerprint :
        Step (StateM World) Bool).run.run (new file lockFile)).run w
      = ((check (Sha256.hexDigest bytes) fingerprint :
        Step (StateM World) Bool).run.run ⟨file, lockFile, some seen, false⟩).run w :=
      run_storage_bind _ h
    rw [new] at hcheck
    rw [if_neg Bool.false_ne_true, if_neg Bool.false_ne_true, run_bind, run_bind, hcheck]

/-- An answer does not depend on whether the marks were opened before or are opened for it. -/
theorem observed_answer (h : Mirrored file lockFile marks w) (request : Request) :
    observed (((new file lockFile).answer request : StateM World _).run w)
      = observed ((marks.answer request : StateM World _).run w) := by
  obtain ⟨⟨rfl, rfl, hsound⟩, himage⟩ := h
  obtain ⟨file, lockFile, memory, degraded⟩ := marks
  obtain rfl := hsound
  cases memory with
  | none => rfl
  | some seen =>
    have hstored : stored? file w = some seen := himage seen rfl
    cases request with
    | isNew fingerprint =>
      have htold := observed_isNew lockFile fingerprint hstored
      exact congrArg (fun told => (Reply.fresh told.1, told.2)) htold
    | contains mark =>
      have hrun : ((contains mark : Step (StateM World) Bool).run.run (new file lockFile)).run w
          = ((contains mark : Step (StateM World) Bool).run.run
            ⟨file, lockFile, some seen, false⟩).run w := run_storage_bind _ hstored
      rw [answer, answer, run_bind, run_bind, hrun]
    | forget mark =>
      have hrun : ((forget mark : Step (StateM World) Unit).run.run (new file lockFile)).run w
          = ((forget mark : Step (StateM World) Unit).run.run
            ⟨file, lockFile, some seen, false⟩).run w := run_storage_bind _ hstored
      rw [answer, answer, run_bind, run_bind, hrun]
    | flush => rfl

/-! ## 4. Schedules -/

/-- What happens next: somebody else changes the machine, or the marks are asked. -/
inductive Moment
  | others (change : World → World)
  | request (request : Request)

/-- Marks as they are, or opened anew. -/
def reopen (reopened : Bool) (marks : Marks) : Marks :=
  if reopened then .new marks.file marks.lockFile else marks

/-- What the marks reply, moment by moment, and the marks and the machine at the end. Before the
moments that say so the marks are opened anew. -/
def play : Marks → World → List (Moment × Bool) → List Reply × Marks × World
  | marks, w, [] => ([], marks, w)
  | marks, w, (.others change, reopened) :: rest => play (reopen reopened marks) (change w) rest
  | marks, w, (.request request, reopened) :: rest =>
    let ((reply, marks), w) := ((reopen reopened marks).answer request : StateM World _).run w
    let (replies, marks, w) := play marks w rest
    (reply :: replies, marks, w)

/-- No use of the file fails, and others leave it alone. -/
def Faultless (file : Path) : Marks → World → List (Moment × Bool) → Prop
  | _, _, [] => True
  | marks, w, (.others change, reopened) :: rest =>
    (change w).tree.readBytes (change w).cwd file = w.tree.readBytes w.cwd file ∧
      Faultless file (reopen reopened marks) (change w) rest
  | marks, w, (.request request, reopened) :: rest =>
    let outcome := ((reopen reopened marks).answer request : StateM World _).run w
    outcome.1.1.Met ∧ outcome.1.2.degraded = false ∧ Faultless file outcome.1.2 outcome.2 rest

instance decidableFaultless (file : Path) : (marks : Marks) → (w : World) →
    (events : List (Moment × Bool)) → Decidable (Faultless file marks w events)
  | _, _, [] => .isTrue trivial
  | marks, w, (.others change, reopened) :: rest =>
    have := decidableFaultless file (reopen reopened marks) (change w) rest
    inferInstanceAs (Decidable (_ ∧ _))
  | marks, w, (.request request, reopened) :: rest =>
    let outcome := ((reopen reopened marks).answer request : StateM World _).run w
    have := decidableFaultless file outcome.1.2 outcome.2 rest
    inferInstanceAs (Decidable (_ ∧ _ ∧ _))

theorem Mirrored.reopen (h : Mirrored file lockFile marks w) (reopened : Bool) :
    Mirrored file lockFile (reopen reopened marks) w := by
  cases reopened with
  | false => exact h
  | true =>
    obtain ⟨⟨rfl, rfl, -⟩, -⟩ := h
    exact mirrored_new _ _ w

/-- The run lemma, for marks that need not be in the same state to begin with. -/
theorem play_of_mirrored {kept opened : Marks} (events events' : List (Moment × Bool))
    (hsame : events'.map Prod.fst = events.map Prod.fst)
    (hkept : Mirrored file lockFile kept w) (hopened : Mirrored file lockFile opened w)
    (hfaultless : Faultless file kept w events) :
    (play opened w events').1 = (play kept w events).1 ∧
      (play opened w events').2.2 = (play kept w events).2.2 ∧
      Mirrored file lockFile (play kept w events).2.1 (play kept w events).2.2 ∧
      Mirrored file lockFile (play opened w events').2.1 (play opened w events').2.2 := by
  induction events generalizing events' kept opened w with
  | nil =>
    obtain rfl := List.map_eq_nil_iff.mp hsame
    exact ⟨rfl, rfl, hkept, hopened⟩
  | cons event rest ih =>
    obtain ⟨moment, reopened⟩ := event
    cases events' with
    | nil => exact absurd hsame (by simp)
    | cons event' rest' =>
      obtain ⟨moment', reopened'⟩ := event'
      obtain ⟨hmoment, hrest⟩ := List.cons.inj hsame
      obtain rfl : moment' = moment := hmoment
      cases moment' with
      | others change =>
        obtain ⟨hfile, hfaultless⟩ := hfaultless
        exact ih rest' hrest ((hkept.reopen reopened).of_same hfile)
          ((hopened.reopen reopened').of_same hfile) hfaultless
      | request request =>
        have hrekept := hkept.reopen reopened
        have hreopened := hopened.reopen reopened'
        rcases hrun : ((reopen reopened kept).answer request : StateM World _).run w
          with ⟨⟨reply, marks⟩, w₁⟩
        rcases hrun' : ((reopen reopened' opened).answer request : StateM World _).run w
          with ⟨⟨reply', marks'⟩, w₁'⟩
        -- Both answers are what marks would say that are opened for this request.
        have htold : observed ((reply', marks'), w₁') = observed ((reply, marks), w₁) := by
          rw [← hrun, ← hrun', ← observed_answer hrekept, ← observed_answer hreopened]
        obtain ⟨hreply, htold⟩ := Prod.mk.inj htold
        obtain ⟨hdegraded, hworld⟩ := Prod.mk.inj htold
        obtain rfl : reply' = reply := hreply
        obtain rfl : w₁' = w₁ := hworld
        rw [Faultless, hrun] at hfaultless
        obtain ⟨hmet, hsound, hfaultless⟩ := hfaultless
        have hmirrored := mirrored_answer hrekept hrun hmet hsound
        have hmirrored' := mirrored_answer hreopened hrun' hmet (hdegraded.trans hsound)
        obtain ⟨hreplies, hend, hfirst, hsecond⟩ := ih rest' hrest hmirrored hmirrored' hfaultless
        rw [play, play, hrun, hrun']
        exact ⟨congrArg (reply' :: ·) hreplies, hend, hfirst, hsecond⟩

/-- **The file is a faithful image of the marks in memory.** Over the same moments, marks give the
same replies and leave the same machine, whichever of the moments they are opened anew before, as long
as no use of the file fails and nobody else writes it. What the file holds at first does not matter,
and at the end it holds the set that is in memory. -/
theorem play_eq_of_reopened (file lockFile : Path) (w : World) (events events' : List (Moment × Bool))
    (hsame : events'.map Prod.fst = events.map Prod.fst)
    (hfaultless : Faultless file (.new file lockFile) w events) :
    (play (.new file lockFile) w events').1 = (play (.new file lockFile) w events).1 ∧
      (play (.new file lockFile) w events').2.2 = (play (.new file lockFile) w events).2.2 ∧
      ∀ seen, (play (.new file lockFile) w events).2.1.seen = some seen →
        stored? file (play (.new file lockFile) w events).2.2 = some seen := by
  have hnew : Mirrored file lockFile (.new file lockFile) w := mirrored_new file lockFile w
  obtain ⟨hreplies, hend, hmirrored, -⟩ := play_of_mirrored events events' hsame hnew hnew hfaultless
  exact ⟨hreplies, hend, hmirrored.image⟩

/-- The lock file is written anew by somebody else. -/
def changeLock (w : World) : World :=
  { w with tree := w.tree.insert ["lock"] (.file "y".toUTF8) }

/-- A fingerprint is asked for twice before the lock file changes, and looked for after that. -/
def visits (reopened : Bool) : List (Moment × Bool) :=
  [.request (.isNew "f"), .request (.isNew "f"), .others changeLock, .request (.contains "f")].map
    fun moment => (moment, reopened)

/-- Marks that are opened anew before everything they are asked remember what they were asked
before. -/
theorem play_eq_of_reopened_visits :
    (play (.new ⟨"cache.json"⟩ ⟨"lock"⟩) lockedWorld (visits true)).1
      = [.fresh true, .fresh false, .recorded (.ok true)] := by
  have hfaultless : Faultless ⟨"cache.json"⟩ (.new ⟨"cache.json"⟩ ⟨"lock"⟩) lockedWorld
      (visits false) := by
    decide +kernel
  have hkept : (play (.new ⟨"cache.json"⟩ ⟨"lock"⟩) lockedWorld (visits false)).1
      = [.fresh true, .fresh false, .recorded (.ok true)] := by
    decide +kernel
  exact (play_eq_of_reopened _ _ _ (visits false) (visits true) rfl hfaultless).1.trans hkept

end Marks

end Graft
