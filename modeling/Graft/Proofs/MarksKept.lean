/-
Which marks can be kept.

Marks live in memory and in a file, and every question may move them from one to the other, write
the file anew or throw both away. None of this makes up a mark: whatever is kept in either place
was allowed before, is the digest of the lock file, or is the fingerprint of the question itself.
So a fingerprint that is no longer new was allowed before it was asked for. This is all that a
skipped run rests on.
-/
import Graft.Marks
import Graft.Proofs.FileContents
import Graft.Proofs.JsonText
import Graft.Proofs.Running

set_option autoImplicit false

namespace Graft.Marks

open FileTree (Location target)
open World (Within)

/-! ## 1. The invariant -/

/-- The location of the marks' file. -/
def Cell (start : World) (file : Path) (location : Location) : Prop :=
  location = target start.cwd file

/-- Every mark that the file holds is allowed. -/
def OnDisk (file : Path) (allowed : String → Prop) (w : World) : Prop :=
  ∀ bytes values, w.tree.content? (target w.cwd file) = some bytes →
    (Json.ofBytes? bytes : Option (List String)) = some values → ∀ mark ∈ values, allowed mark

/-- Every mark in memory is allowed. -/
def InMemory (allowed : String → Prop) (marks : Marks) : Prop :=
  ∀ seen, marks.seen = some seen → ∀ mark ∈ seen.toList, allowed mark

/-- Marks that were taken up on a machine hold nothing but allowed ones, and only their own file
was written. -/
structure Kept (start : World) (file lockFile : Path) (allowed : String → Prop) (marks : Marks)
    (w : World) : Prop where
  file_eq : marks.file = file
  lockFile_eq : marks.lockFile = lockFile
  within : Within (Cell start file) start w
  memory : InMemory allowed marks
  disk : OnDisk file allowed w

variable {start : World} {file lockFile : Path} {allowed allowed' : String → Prop}

theorem OnDisk.mono {w : World} (h : OnDisk file allowed w)
    (hall : ∀ mark, allowed mark → allowed' mark) : OnDisk file allowed' w :=
  fun bytes values hbytes hvalues mark hmark => hall mark (h bytes values hbytes hvalues mark hmark)

theorem InMemory.mono {marks : Marks} (h : InMemory allowed marks)
    (hall : ∀ mark, allowed mark → allowed' mark) : InMemory allowed' marks :=
  fun seen hseen mark hmark => hall mark (h seen hseen mark hmark)

theorem Kept.mono {marks : Marks} {w : World} (h : Kept start file lockFile allowed marks w)
    (hall : ∀ mark, allowed mark → allowed' mark) : Kept start file lockFile allowed' marks w :=
  ⟨h.file_eq, h.lockFile_eq, h.within, h.memory.mono hall, h.disk.mono hall⟩

/-- Nothing new in a file means no new marks. -/
theorem OnDisk.of_within {region : Location → Prop} {w w' : World} (h : OnDisk file allowed w)
    (hwithin : Within region w w') (hout : ¬ region (target w.cwd file)) :
    OnDisk file allowed w' := by
  intro bytes values hbytes
  rw [hwithin.cwd] at hbytes
  exact h bytes values (hwithin.content? hout hbytes)

/-- A machine that put no content anywhere keeps marks as they are. -/
theorem Kept.of_nothing {marks : Marks} {w w' : World}
    (h : Kept start file lockFile allowed marks w) (hwithin : Within (fun _ => False) w w') :
    Kept start file lockFile allowed marks w' where
  file_eq := h.file_eq
  lockFile_eq := h.lockFile_eq
  within := h.within.trans ⟨hwithin.cwd, fun _ _ hcontent =>
    .inl (hwithin.content? id hcontent)⟩
  memory := h.memory
  disk := h.disk.of_within hwithin id

/-- Marks in memory may be exchanged for other allowed ones. -/
theorem Kept.set_seen {marks : Marks} {w : World} (h : Kept start file lockFile allowed marks w)
    {seen : OrderedSet String} (hseen : ∀ mark ∈ seen.toList, allowed mark) :
    Kept start file lockFile allowed { marks with seen := some seen } w where
  file_eq := h.file_eq
  lockFile_eq := h.lockFile_eq
  within := h.within
  memory _ hfound := Option.some.inj hfound ▸ hseen
  disk := h.disk

/-- Writing allowed marks to the file keeps to the invariant: they are read back as they were. -/
theorem Kept.of_wrote {marks : Marks} {w w' : World} (h : Kept start file lockFile allowed marks w)
    {seen : OrderedSet String} (hseen : ∀ mark ∈ seen.toList, allowed mark)
    (hwrote : World.Wrote file (content seen) w w') :
    Kept start file lockFile allowed marks w' where
  file_eq := h.file_eq
  lockFile_eq := h.lockFile_eq
  within := h.within.trans (hwrote.within (by rw [Cell, h.within.cwd]))
  memory := h.memory
  disk bytes values hbytes hvalues := by
    rw [hwrote.cwd, hwrote.self] at hbytes
    obtain rfl := Option.some.inj hbytes
    -- What the file holds now is what was written, and that is read as it was.
    rw [content, Json.ofBytes?_toText] at hvalues
    obtain rfl := Option.some.inj hvalues
    exact hseen

/-! ## 2. What the steps keep -/

/-- The steps keep the invariant, and what they return has a property. -/
abbrev Sound {α : Type} (start : World) (file lockFile : Path) (allowed : String → Prop)
    (step : Step (StateM World) α) (Q : α → Prop) : Prop :=
  Assures (Kept start file lockFile allowed) step Q

theorem sound_get : Sound start file lockFile allowed get
    fun marks => marks.file = file ∧ InMemory allowed marks :=
  Assures.get fun _ _ h => ⟨h.file_eq, h.memory⟩

/-- What puts no content anywhere keeps the invariant. -/
theorem sound_host {α : Type} {action : StateM World α}
    (h : Keeps (Within fun _ => False) action) :
    Sound start file lockFile allowed (host action) fun _ => True :=
  Assures.lift fun _ _ _ _ hkept hrun => ⟨hkept.of_nothing (h.of_run hrun), trivial⟩

theorem sound_log (event : Event) :
    Sound start file lockFile allowed (host (Host.log event)) fun _ => True :=
  sound_host fun _ => World.within_log rfl

theorem sound_flush : Sound start file lockFile allowed flush fun _ => True := by
  refine Assures.bind (Assures.modify fun marks w h => h.set_seen ?_) fun _ _ => ?_
  · exact fun mark hmark => absurd hmark List.not_mem_nil
  · refine Assures.bind sound_get fun marks _ => ?_
    refine Assures.bind (sound_host fun _ => World.within_removeFile rfl) fun removed _ => ?_
    split
    · exact Assures.pure trivial
    · exact Assures.pure trivial
    · exact Assures.bind sound_get fun _ _ => Assures.throw _

/-- What is read from the file is allowed. -/
theorem sound_hydrate : Sound start file lockFile allowed hydrate
    fun seen => ∀ mark ∈ seen.toList, allowed mark := by
  have hempty : ∀ mark ∈ (OrderedSet.empty : OrderedSet String).toList, allowed mark :=
    fun mark hmark => absurd hmark List.not_mem_nil
  refine Assures.bind sound_get fun marks hmarks => ?_
  obtain ⟨rfl, -⟩ := hmarks
  have hread : Sound start marks.file lockFile allowed (host (Host.readBytes marks.file))
      fun read => ∀ bytes values, read = .ok bytes →
        (Json.ofBytes? bytes : Option (List String)) = some values → ∀ v ∈ values, allowed v := by
    refine Assures.lift fun _ w _ _ hkept hrun => ?_
    obtain ⟨rfl, rfl⟩ := Prod.mk.inj hrun
    refine ⟨hkept, fun bytes values hbytes => ?_⟩
    exact hkept.disk bytes values (FileTree.content?_of_readBytes hbytes)
  refine Assures.bind hread fun read hallowed => ?_
  split
  · exact Assures.pure hempty
  · exact Assures.throw _
  · next bytes =>
    split
    · next values hvalues =>
      refine Assures.pure fun mark hmark => ?_
      exact hallowed bytes values rfl hvalues mark (OrderedSet.mem_ofList.mp hmark)
    · refine Assures.bind (sound_log _) fun _ _ => ?_
      exact Assures.bind sound_flush fun _ _ => Assures.pure hempty

theorem sound_storage : Sound start file lockFile allowed storage
    fun seen => ∀ mark ∈ seen.toList, allowed mark := by
  refine Assures.bind sound_get fun marks hmarks => ?_
  split
  · next seen hseen => exact Assures.pure (hmarks.2 seen hseen)
  · refine Assures.bind sound_hydrate fun seen hseen => ?_
    refine Assures.bind (Assures.modify fun _ _ h => h.set_seen hseen) fun _ _ => ?_
    exact Assures.pure hseen

theorem sound_guardIo {action : StateM World (Except FileError Unit)}
    (h : Sound start file lockFile allowed (host action) fun _ => True) :
    Sound start file lockFile allowed (guardIo action) fun _ => True := by
  refine Assures.bind h fun result _ => ?_
  split
  · exact Assures.pure trivial
  · exact Assures.bind sound_get fun _ _ => Assures.throw _

theorem sound_createDirectories (path : Path) :
    Sound start file lockFile allowed (host (Host.createDirectories path)) fun _ => True :=
  sound_host fun _ => World.within_createDirectories rfl

/-- Allowed marks may be written to the file. -/
theorem sound_replaceFile {seen : OrderedSet String} (hseen : ∀ mark ∈ seen.toList, allowed mark) :
    Sound start file lockFile allowed (host (Host.replaceFile file (content seen)))
      fun _ => True := by
  refine Assures.lift fun _ w _ _ hkept hrun => ⟨?_, trivial⟩
  rcases World.replaceFile_cases hrun with ⟨error, -, rfl⟩ | ⟨-, hwrote⟩
  · exact hkept
  · exact hkept.of_wrote hseen hwrote

theorem sound_persist : Sound start file lockFile allowed persist fun _ => True := by
  refine Assures.bind sound_get fun marks hmarks => ?_
  obtain ⟨rfl, hmemory⟩ := hmarks
  have hseen : ∀ mark ∈ (marks.seen.getD .empty).toList, allowed mark := by
    cases hcase : marks.seen with
    | none => exact fun mark hmark => absurd hmark List.not_mem_nil
    | some seen => exact hmemory seen hcase
  refine Assures.bind (sound_guardIo (sound_createDirectories _)) fun _ _ => ?_
  exact sound_guardIo (sound_replaceFile hseen)

/-- Only an allowed mark may be added. -/
theorem sound_synchronize {mark : String} (h : allowed mark) :
    Sound start file lockFile allowed (synchronize mark) fun _ => True := by
  refine Assures.bind sound_storage fun seen hseen => ?_
  refine Assures.bind (Assures.modify fun _ _ hkept => hkept.set_seen ?_) fun _ _ => sound_persist
  intro other hother
  rcases (OrderedSet.mem_insert seen mark other).mp hother with hold | rfl
  · exact hseen other hold
  · exact h

/-! ## 3. What a question finds out -/

variable {indicator fingerprint : String}

theorem sound_check (hindicator : allowed indicator) (hfingerprint : allowed fingerprint) :
    Sound start file lockFile allowed (check indicator fingerprint) fun _ => True := by
  -- The second half of a check is the same whether or not the marks were flushed before.
  have hask : Sound start file lockFile allowed (do
      if (← storage).contains fingerprint then return false
      synchronize fingerprint
      return true) fun _ => True := by
    refine Assures.bind sound_storage fun seen _ => ?_
    split
    · exact Assures.pure trivial
    · exact Assures.bind (sound_synchronize hfingerprint) fun _ _ => Assures.pure trivial
  refine Assures.bind sound_storage fun seen _ => ?_
  simp only
  split
  · refine Assures.bind (sound_log _) fun _ _ => ?_
    refine Assures.bind sound_flush fun _ _ => ?_
    exact Assures.bind (sound_synchronize hindicator) fun _ _ => hask
  · exact hask

/-- A fingerprint that is not new is allowed, whether or not it was allowed to be recorded. -/
theorem allowed_of_check {marks marks' : Marks} {w w' : World}
    (hkept : Kept start file lockFile allowed marks w) (hindicator : allowed indicator)
    (h : ((check indicator fingerprint : Step (StateM World) Bool).run.run marks).run w
      = ((.ok false, marks'), w')) :
    allowed fingerprint := by
  -- The answer comes from the last look at the marks, before the fingerprint is recorded.
  have hask {marks₁ : Marks} {w₁ : World} (hkept₁ : Kept start file lockFile allowed marks₁ w₁)
      (hrun : ((do
        if (← storage).contains fingerprint then return false
        synchronize fingerprint
        return true : Step (StateM World) Bool).run.run marks₁).run w₁ = ((.ok false, marks'), w')) :
      allowed fingerprint := by
    obtain ⟨seen, marks₂, w₂, hstorage, hrun⟩ := run_bind_run_eq_ok hrun
    have hseen := (sound_storage hkept₁ hstorage).2 seen rfl
    split at hrun
    · next hmem => exact hseen fingerprint (of_decide_eq_true hmem)
    · obtain ⟨_, marks₃, w₃, -, hrun⟩ := run_bind_run_eq_ok hrun
      exact absurd (Prod.mk.inj (Prod.mk.inj hrun).1).1 (by simp)
  obtain ⟨seen, marks₁, w₁, hstorage, h⟩ := run_bind_run_eq_ok h
  have hkept₁ := (sound_storage hkept hstorage).1
  simp only at h
  split at h
  · obtain ⟨_, marks₂, w₂, hlog, h⟩ := run_bind_run_eq_ok h
    have hkept₂ := (sound_log _ hkept₁ hlog).1
    obtain ⟨_, marks₃, w₃, hflush, h⟩ := run_bind_run_eq_ok h
    have hkept₃ := (sound_flush hkept₂ hflush).1
    obtain ⟨_, marks₄, w₄, hsync, h⟩ := run_bind_run_eq_ok h
    exact hask (sound_synchronize hindicator hkept₃ hsync).1 h
  · exact hask hkept₁ h

/-- What a question comes to: it is not asked, it fails, or it is answered. -/
theorem isNew_cases {marks marks' : Marks} {fresh : Bool} {w w' : World}
    (h : (marks.isNew fingerprint : StateM World _).run w = ((fresh, marks'), w')) :
    (fresh = true ∧ marks' = marks ∧ Within (fun _ => False) w w') ∨
      ∃ bytes result marks₁ w₁,
        w.tree.content? (target w.cwd marks.lockFile) = some bytes ∧
        ((check (Sha256.hexDigest bytes) fingerprint : Step (StateM World) Bool).run.run marks).run w
          = ((result, marks₁), w₁) ∧
        ((result = .ok fresh ∧ marks' = marks₁ ∧ w' = w₁) ∨
          (fresh = true ∧ marks' = { marks₁ with degraded := true } ∧
            Within (fun _ => False) w₁ w')) := by
  rw [isNew, run_bind] at h
  have hread : (Host.readBytes marks.lockFile : StateM World _).run w
      = (w.tree.readBytes w.cwd marks.lockFile, w) := rfl
  rw [hread] at h
  simp only at h
  split at h
  · obtain ⟨⟨rfl, rfl⟩, hworld⟩ := (Prod.mk.inj h).imp_left Prod.mk.inj
    exact .inl ⟨rfl, rfl, World.within_log (Prod.ext rfl hworld)⟩
  · next bytes hbytes =>
    split at h
    · obtain ⟨⟨rfl, rfl⟩, rfl⟩ := (Prod.mk.inj h).imp_left Prod.mk.inj
      exact .inl ⟨rfl, rfl, .refl _ _⟩
    · refine .inr ⟨bytes, ?_⟩
      rw [run_bind] at h
      rcases hcheck : ((check (Sha256.hexDigest bytes) fingerprint :
        Step (StateM World) Bool).run.run marks).run w with ⟨⟨result, marks₁⟩, w₁⟩
      rw [hcheck] at h
      refine ⟨result, marks₁, w₁, FileTree.content?_of_readBytes hbytes, rfl, ?_⟩
      cases result with
      | ok answer =>
        obtain ⟨⟨rfl, rfl⟩, rfl⟩ := (Prod.mk.inj h).imp_left Prod.mk.inj
        exact .inl ⟨rfl, rfl, rfl⟩
      | error error =>
        obtain ⟨⟨rfl, rfl⟩, hworld⟩ := (Prod.mk.inj h).imp_left Prod.mk.inj
        exact .inr ⟨rfl, rfl, World.within_log (Prod.ext rfl hworld)⟩

/-- **A question records its fingerprint at most.** If the digest of the lock file is allowed, all
that is kept afterwards is allowed or the fingerprint, and a fingerprint that is not new was
allowed. -/
theorem isNew_spec {marks marks' : Marks} {fresh : Bool} {w w' : World}
    (hkept : Kept start file lockFile allowed marks w)
    (hlock : ∀ bytes, w.tree.content? (target w.cwd lockFile) = some bytes →
      allowed (Sha256.hexDigest bytes))
    (h : (marks.isNew fingerprint : StateM World _).run w = ((fresh, marks'), w')) :
    Kept start file lockFile (fun mark => allowed mark ∨ mark = fingerprint) marks' w' ∧
      (fresh = false → allowed fingerprint) := by
  have hwider : Kept start file lockFile (fun mark => allowed mark ∨ mark = fingerprint) marks w :=
    hkept.mono fun _ => .inl
  rcases isNew_cases h with ⟨rfl, rfl, hnothing⟩ | ⟨bytes, result, marks₁, w₁, hbytes, hrun, hend⟩
  · exact ⟨hwider.of_nothing hnothing, fun hfalse => absurd hfalse (by simp)⟩
  · rw [hkept.lockFile_eq] at hbytes
    have hindicator := hlock bytes hbytes
    have hkept₁ := (sound_check (.inl hindicator) (.inr rfl) hwider hrun).1
    rcases hend with ⟨rfl, rfl, rfl⟩ | ⟨rfl, rfl, hnothing⟩
    · refine ⟨hkept₁, ?_⟩
      rintro rfl
      exact allowed_of_check hkept hindicator hrun
    · -- A check that fails leaves what it has kept until then, and answers that all is new.
      have hkept₂ := hkept₁.of_nothing hnothing
      refine ⟨⟨hkept₂.file_eq, hkept₂.lockFile_eq, hkept₂.within, hkept₂.memory, hkept₂.disk⟩, ?_⟩
      exact fun hfalse => absurd hfalse (by simp)

end Graft.Marks
