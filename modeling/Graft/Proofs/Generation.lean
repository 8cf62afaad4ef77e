/-
What a generation leaves on a machine.

The artifacts of a namespace are entries of its directory, each under a name that cannot lead out of
it, so whatever a generation does and however it ends, it puts contents nowhere else. The index is
the last file to be written: when a generation succeeds, the index is the one of its ledger.
-/
import Graft.Artifact
import Graft.Proofs.FileContents
import Graft.Proofs.Running

set_option autoImplicit false

namespace Graft.Artifact

open FileTree (Location Simple target target_entry)
open World (Within)

/-! ## 1. Names of artifacts -/

theorem stemChar_ne_slash (c : Char) : stemChar c ≠ '/' := by
  unfold stemChar
  split
  · rintro rfl
    simp_all
  · decide

/-- The start of a digest is written in letters and figures. -/
theorem slash_not_mem_shortHexOfText (text : String) :
    '/' ∉ (Sha256.shortHexOfText text).toList := by
  rw [Sha256.shortHexOfText, String.toList_ofList]
  intro h
  have halnum := Sha256.isAlphanum_of_mem_hexDigest (List.mem_of_mem_take h)
  exact absurd halnum (by decide)

/-- Nothing in a claimed stem leads out of a directory. -/
theorem slash_not_mem_claim (taken : List String) (destination : String) :
    '/' ∉ (claim taken destination).toList := by
  have hstem : '/' ∉ (stem destination).toList := by
    rw [stem, String.toList_ofList]
    intro h
    obtain ⟨c, -, hc⟩ := List.mem_map.mp h
    exact stemChar_ne_slash c hc
  unfold claim
  simp only
  split
  · rw [String.toList_append, String.toList_append, List.mem_append, List.mem_append]
    rintro ((h | h) | h)
    · exact hstem h
    · exact absurd h (by decide)
    · exact slash_not_mem_shortHexOfText destination h
  · exact hstem

theorem simple_json {stem : String} (h : '/' ∉ stem.toList) : Simple (stem ++ ".json") := by
  -- With its extension a name is longer than those that lead elsewhere.
  have hlength : 5 ≤ (stem ++ ".json").length := by
    rw [String.length_append]
    exact Nat.le_add_left 5 stem.length
  have hne (short : String) (hs : short.length < 5) : stem ++ ".json" ≠ short := by
    intro heq
    rw [heq] at hlength
    omega
  refine ⟨?_, hne "" (by decide), hne "." (by decide), hne ".." (by decide)⟩
  rw [String.toList_append, List.mem_append]
  rintro (h' | h')
  · exact h h'
  · exact absurd h' (by decide)

/-- The file of a sheet has a stem that leads nowhere else. -/
theorem exists_stem_of_mem_sheets {ledger : Ledger} {sheet : Sheet} (h : sheet ∈ sheets ledger) :
    ∃ stem, '/' ∉ stem.toList ∧ sheet.file = stem ++ ".json" := by
  obtain ⟨⟨destination, stem⟩, hin, rfl⟩ := List.mem_map.mp h
  have hclaimed : ∀ (taken destinations : List String),
      ∀ s ∈ claimAll taken destinations, '/' ∉ s.toList := by
    intro taken destinations
    induction destinations generalizing taken with
    | nil => exact fun s hs => absurd hs List.not_mem_nil
    | cons d rest ih =>
      intro s hs
      rcases List.mem_cons.mp hs with rfl | hs
      · exact slash_not_mem_claim taken d
      · exact ih _ s hs
  exact ⟨stem, hclaimed [] _ stem (List.of_mem_zip hin).2, rfl⟩

/-- Every sheet goes to an entry of the directory. -/
theorem simple_file {ledger : Ledger} {sheet : Sheet} (h : sheet ∈ sheets ledger) :
    Simple sheet.file := by
  obtain ⟨stem, hstem, hfile⟩ := exists_stem_of_mem_sheets h
  rw [hfile]
  exact simple_json hstem

/-- A namespace of one name. -/
def app : Namespace := ⟨["App"], by decide, by decide⟩

theorem simple_indexFile : Simple indexFile := ⟨by decide, by decide, by decide, by decide⟩

/-! ## 2. Relations that a generation respects -/

section Respecting

variable {σ : Type} [Host (StateM σ)] {R : σ → σ → Prop} {directory : Path}

/-- A relation that everything respects that clearing a directory does to a machine. -/
structure Clearing (R : σ → σ → Prop) (directory : Path) : Prop where
  composable : Composable R
  list : ∀ path, Keeps R (Host.list path : StateM σ _)
  isFile : ∀ path, Keeps R (Host.isFile path : StateM σ _)
  removeFile : ∀ name, Keeps R (Host.removeFile (directory.entry name) : StateM σ _)

/-- A relation that everything respects that is done to a machine once the directory is clear. -/
structure Filling (R : σ → σ → Prop) (directory : Path) : Prop where
  composable : Composable R
  createDirectories : Keeps R (Host.createDirectories directory : StateM σ _)
  writeFile : ∀ stem content, '/' ∉ stem.toList →
    Keeps R (Host.writeFile (directory.entry (stem ++ ".json")) content : StateM σ _)
  log : ∀ event, Keeps R (Host.log event : StateM σ _)

/-- A relation that everything respects that a generation into a directory does to a machine. -/
structure Respected (R : σ → σ → Prop) (directory : Path) : Prop extends
    Clearing R directory where
  createDirectories : ∀ path, Keeps R (Host.createDirectories path : StateM σ _)
  writeFile : ∀ name content, Simple name →
    Keeps R (Host.writeFile (directory.entry name) content : StateM σ _)
  log : ∀ event, Keeps R (Host.log event : StateM σ _)

theorem Respected.filling (hR : Respected R directory) : Filling R directory where
  composable := hR.composable
  createDirectories := hR.createDirectories directory
  writeFile _ content hstem := hR.writeFile _ content (simple_json hstem)
  log := hR.log

/-- Removing old files respects what looking at them and the removals themselves respect. -/
theorem keeps_removeOld (hR : Composable R)
    (hisFile : ∀ path, Keeps R (Host.isFile path : StateM σ _)) {names : List String}
    (h : ∀ name ∈ names, Path.extensionOf? name = some "json" →
      Keeps R (Host.removeFile (directory.entry name) : StateM σ _)) :
    Keeps R (removeOld directory names : ExceptT ArtifactError (StateM σ) Unit).run := by
  induction names with
  | nil => exact Keeps.pure hR _
  | cons name rest ih =>
    obtain ⟨hname, hrest⟩ := List.forall_mem_cons.mp h
    refine Keeps.bindExcept hR (Keeps.lift hR (hisFile _)) fun isFile => ?_
    split
    · next hold =>
      rw [Bool.and_eq_true, decide_eq_true_iff] at hold
      exact Keeps.bindExcept hR (Keeps.mapError hR _ (hname hold.2)) fun _ => ih hrest
    · exact ih hrest

theorem Clearing.removeOld (hR : Clearing R directory) (names : List String) :
    Keeps R (removeOld directory names : ExceptT ArtifactError (StateM σ) Unit).run :=
  keeps_removeOld hR.composable hR.isFile fun name _ _ => hR.removeFile name

theorem Clearing.clear (hR : Clearing R directory) :
    Keeps R (clear directory : ExceptT ArtifactError (StateM σ) Unit).run := by
  refine Keeps.bindExcept hR.composable (Keeps.lift hR.composable (hR.list directory))
    fun listed => ?_
  split
  · exact Keeps.pure hR.composable _
  · exact Keeps.pure hR.composable _
  · exact hR.removeOld _

/-- Writing sheets respects what the writes of their files respect. -/
theorem keeps_writeSheets (hR : Composable R)
    (hlog : ∀ event, Keeps R (Host.log event : StateM σ _)) (space : Namespace)
    {sheets : List Sheet}
    (h : ∀ sheet ∈ sheets, ∀ content,
      Keeps R (Host.writeFile (directory.entry sheet.file) content : StateM σ _)) :
    Keeps R (writeSheets space directory sheets :
      ExceptT ArtifactError (StateM σ) Unit).run := by
  induction sheets with
  | nil => exact Keeps.pure hR _
  | cons sheet rest ih =>
    obtain ⟨hsheet, hrest⟩ := List.forall_mem_cons.mp h
    refine Keeps.bindExcept hR (Keeps.mapError hR _ (hsheet _)) fun _ => ?_
    exact Keeps.bindExcept hR (Keeps.lift hR (hlog _)) fun _ => ih hrest

/-- A generation clears its directory, and what it does then respects what filling a directory
respects. It may be nothing. -/
theorem Filling.of_generate {ledger : Ledger} {space : Namespace} {output : Path}
    {result : Except ArtifactError Report} {s s' : σ}
    (hR : Filling R (Artifact.directory space output))
    (h : (generate ledger space output : ExceptT ArtifactError (StateM σ) Report).run.run s
      = (result, s')) :
    ∃ cleared t, (clear (Artifact.directory space output) :
      ExceptT ArtifactError (StateM σ) Unit).run.run s = (cleared, t) ∧ R t s' := by
  rcases run_bind_cases h with ⟨error, hclear, -⟩ | ⟨_, t, hclear, hrest⟩
  · exact ⟨_, s', hclear, hR.composable.refl s'⟩
  · refine ⟨_, t, hclear, Keeps.of_run ?_ hrest⟩
    refine Keeps.bindExcept hR.composable
      (Keeps.mapError hR.composable _ hR.createDirectories) fun _ => ?_
    have hsheets : Keeps R (writeSheets space (Artifact.directory space output) (sheets ledger) :
        ExceptT ArtifactError (StateM σ) Unit).run := by
      apply keeps_writeSheets hR.composable hR.log
      intro sheet hsheet content
      obtain ⟨stem, hstem, hfile⟩ := exists_stem_of_mem_sheets hsheet
      rw [hfile]
      exact hR.writeFile stem content hstem
    refine Keeps.bindExcept hR.composable hsheets fun _ => ?_
    have hindex (content : ByteArray) : Keeps R
        (Host.writeFile (indexPath space output) content : StateM σ _) :=
      hR.writeFile "_index" content (by decide)
    refine Keeps.bindExcept hR.composable (Keeps.mapError hR.composable _ (hindex _)) fun _ => ?_
    exact Keeps.bindExcept hR.composable (Keeps.lift hR.composable (hR.log _)) fun _ =>
      Keeps.pure hR.composable _

/-- A generation respects whatever its file operations respect, however it ends. -/
theorem Respected.generate {space : Namespace} {output : Path}
    (hR : Respected R (Artifact.directory space output)) (ledger : Ledger) :
    Keeps R (generate ledger space output : ExceptT ArtifactError (StateM σ) Report).run := by
  intro s
  rcases hrun : (Artifact.generate ledger space output :
    ExceptT ArtifactError (StateM σ) Report).run.run s with ⟨result, s'⟩
  obtain ⟨cleared, t, hclear, hfilled⟩ := hR.filling.of_generate hrun
  exact hR.composable.trans (hR.clear.of_run hclear) hfilled

end Respecting

/-! ## 3. Where contents are put -/

/-- The entries of a directory. -/
def Inside (cwd : Location) (directory : Path) (location : Location) : Prop :=
  ∃ name, location = target cwd directory ++ [name]

/-- From a working directory on, contents are only put into a directory. -/
def Confined (cwd : Location) (directory : Path) (w w' : World) : Prop :=
  w.cwd = cwd → Within (Inside cwd directory) w w'

variable {cwd : Location} {directory : Path}

theorem confined_composable : Composable (Confined cwd directory) where
  refl w _ := .refl _ w
  trans h h' hcwd := (h hcwd).trans (h' ((h hcwd).cwd.trans hcwd))

/-- A write to an entry of the directory stays inside. -/
theorem keeps_writeFile {name : String} (h : Simple name) (content : ByteArray) :
    Keeps (Confined cwd directory)
      (Host.writeFile (directory.entry name) content : StateM World _) := by
  intro w hcwd
  rcases hrun : (Host.writeFile (directory.entry name) content : StateM World _).run w with
    ⟨result, w'⟩
  rcases World.writeFile_cases hrun with ⟨error, -, rfl⟩ | ⟨-, hwrote⟩
  · exact .refl _ w'
  · exact hwrote.within ⟨name, by rw [target_entry _ _ h, hcwd]⟩

/-- Only writes put contents anywhere, and all of them go to entries of the directory. -/
theorem confined_respected : Respected (Confined cwd directory) directory where
  composable := confined_composable
  list _ w := confined_composable.refl w
  isFile _ w := confined_composable.refl w
  removeFile _ _ _ := World.within_removeFile rfl
  createDirectories _ _ _ := World.within_createDirectories rfl
  writeFile _ content hname := keeps_writeFile hname content
  log _ _ _ := World.within_log rfl

theorem keeps_clear :
    Keeps (Confined cwd directory)
      (clear directory : ExceptT ArtifactError (StateM World) Unit).run :=
  confined_respected.clear

/-- **A generation keeps to its directory.** However it ends, contents are only put into entries of
the directory of its namespace. -/
theorem keeps_generate (ledger : Ledger) (space : Namespace) (output : Path) :
    Keeps (Confined cwd (Artifact.directory space output))
      (generate ledger space output : ExceptT ArtifactError (StateM World) Report).run :=
  confined_respected.generate ledger

/-! ## 4. A generation that succeeds -/

/-- The content of the index of a ledger. -/
def indexContent (space : Namespace) (ledger : Ledger) : ByteArray :=
  content (indexJson space ledger.fingerprint (sheets ledger))

/-- A generation that succeeds leaves the index of its ledger. -/
theorem indexContent_of_generate {ledger : Ledger} {space : Namespace} {output : Path}
    {report : Report} {w w' : World}
    (h : (generate ledger space output : ExceptT ArtifactError (StateM World) Report).run.run w
      = (.ok report, w')) :
    w'.tree.content? (target w.cwd (indexPath space output)) = some (indexContent space ledger) := by
  obtain ⟨_, w₁, hclear, h⟩ := run_bind_eq_ok h
  obtain ⟨_, w₂, hcreate, h⟩ := run_bind_eq_ok h
  obtain ⟨_, w₃, hsheets, h⟩ := run_bind_eq_ok h
  obtain ⟨_, w₄, hindex, h⟩ := run_bind_eq_ok h
  -- Up to the last write nothing moves the working directory, on which its target depends.
  have h₁ : Confined w.cwd (directory space output) w w₁ := keeps_clear.of_run hclear
  have h₂ : Confined w.cwd (directory space output) w₁ w₂ :=
    (fun hcwd => World.within_createDirectories (run_mapError_eq_ok hcreate))
  have h₃ : Confined w.cwd (directory space output) w₂ w₃ :=
    (keeps_writeSheets confined_composable confined_respected.log space fun sheet hsheet content =>
      keeps_writeFile (simple_file hsheet) content).of_run hsheets
  have hcwd : w₃.cwd = w.cwd :=
    (confined_composable.trans (confined_composable.trans h₁ h₂) h₃ rfl).cwd
  rcases World.writeFile_cases (run_mapError_eq_ok hindex) with ⟨error, herror, -⟩ | ⟨-, hwrote⟩
  · exact absurd herror (by simp)
  · obtain ⟨_, w₅, hinfo, h⟩ := run_bind_eq_ok h
    obtain rfl : w₅ = w' := congrArg Prod.snd h
    have hlogged : w₄.tree = w₅.tree := congrArg (fun outcome => outcome.2.tree) hinfo
    rw [← hlogged, ← hcwd]
    exact hwrote.self

/-! ## 5. What an index records -/

/-- A content is an index of a namespace that records a fingerprint. -/
def Records (space : Namespace) (bytes : ByteArray) (fingerprint : String) : Prop :=
  ∃ sheets, bytes = content (indexJson space fingerprint sheets)

theorem records_indexContent (space : Namespace) (ledger : Ledger) :
    Records space (indexContent space ledger) ledger.fingerprint := ⟨sheets ledger, rfl⟩

/-- What stands in every index of a namespace in front of the fingerprint. -/
def opening (space : Namespace) : List Char :=
  '\x7b' :: Json.Style.pretty.lineBreak 1 ++ (Json.writeString (some "namespace") ++
      (Json.Style.pretty.colon ++ Json.writeString (some space.text))) ++
    (',' :: Json.Style.pretty.lineBreak 1 ++ (Json.writeString (some "fingerprint") ++
      (Json.Style.pretty.colon ++ ['"'])))

/-- What stands in an index behind the fingerprint. -/
def closing (sheets : List Sheet) : List Char :=
  '"' :: (Json.writeFields .pretty 1
      [(some "destinations", .array (sheets.map Sheet.entry))] ++
    (Json.Style.pretty.lineBreak 0 ++ ['\x7d']))

theorem toList_pretty_indexJson (space : Namespace) (fingerprint : String) (sheets : List Sheet) :
    (indexJson space fingerprint sheets).pretty.toList
      = opening space ++ (fingerprint.toList.flatMap Json.escapeChar ++ closing sheets) := by
  rw [Json.pretty, String.toList_ofList, indexJson, Json.record, opening, closing]
  simp only [List.map_cons, List.map_nil, Json.write, Json.writeFields, Json.text,
    Json.writeString, List.append_assoc, List.cons_append, List.nil_append]

/-- An index records one fingerprint of a ledger only. -/
theorem fingerprint_eq_of_records {space : Namespace} {bytes : ByteArray} {ledger other : Ledger}
    (h : Records space bytes ledger.fingerprint) (h' : Records space bytes other.fingerprint) :
    ledger.fingerprint = other.fingerprint := by
  obtain ⟨sheets, rfl⟩ := h
  obtain ⟨sheets', hbytes⟩ := h'
  have hdigest (l : Ledger) : l.fingerprint.toList.flatMap Json.escapeChar = l.fingerprint.toList :=
    Json.flatMap_escapeChar_of_isAlphanum fun _ => Sha256.isAlphanum_of_mem_hexDigest
  have htext := String.toByteArray_inj.mp hbytes
  rw [← String.toList_inj, String.toList_append, String.toList_append, toList_pretty_indexJson,
    toList_pretty_indexJson, hdigest, hdigest] at htext
  -- Both openings are the same, and fingerprints have the same length.
  simp only [List.append_assoc, List.append_cancel_left_eq] at htext
  exact String.toList_inj.mp (List.append_inj_left htext
    (by rw [Ledger.length_toList_fingerprint, Ledger.length_toList_fingerprint]))

/-- An index of a ledger records the fingerprint of another one only if they share it. -/
theorem records_indexContent_iff {space : Namespace} {ledger other : Ledger} :
    Records space (indexContent space ledger) other.fingerprint
      ↔ ledger.fingerprint = other.fingerprint :=
  ⟨fingerprint_eq_of_records (records_indexContent space ledger),
    fun h => h ▸ records_indexContent space ledger⟩

end Graft.Artifact
