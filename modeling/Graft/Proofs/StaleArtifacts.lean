/-
What is left in a directory that is generated again and again.

A generation first deletes the files with the extension that artifacts have, and then writes its own.
So of earlier generations nothing is left whose name has the extension, which is all but one file. The
destination with the empty name has the file `.json`, which is a name without an extension; once written
it stays, whatever the later generations are for.

The main statements are `Artifact.regenerated_files_iff` and `Artifact.stale_artifact_survives`.
-/
import Graft.Proofs.Ancestors
import Graft.Proofs.Written

set_option autoImplicit false

namespace Graft.Artifact

open FileTree (Location Simple Rooted Site KeepsDirectories target target_entry)
open World (Untouched)

/-! ## 1. Names -/

/-- An artifact has the extension of its kind unless its stem is empty. -/
theorem extensionOf?_json (stem : String) :
    Path.extensionOf? (stem ++ ".json") = if stem = "" then none else some "json" := by
  have hchars : (stem ++ ".json").toList.reverse = 'n' :: 'o' :: 's' :: 'j' :: '.' ::
      stem.toList.reverse := by
    rw [String.toList_append, List.reverse_append]
    rfl
  unfold Path.extensionOf?
  simp only [hchars]
  by_cases hempty : stem = ""
  · subst hempty
    rfl
  · rw [if_neg hempty]
    have hne : stem.toList.reverse ≠ [] := by
      rw [Ne, List.reverse_eq_nil_iff]
      exact fun h => hempty (String.toList_eq_nil_iff.mp h)
    obtain ⟨c, rest, hreverse⟩ := List.exists_cons_of_ne_nil hne
    rw [hreverse]
    rfl

theorem append_json_eq {stem : String} : stem ++ ".json" = ".json" ↔ stem = "" := by
  constructor
  · intro h
    have hchars := congrArg String.toList h
    rw [String.toList_append] at hchars
    exact String.toList_eq_nil_iff.mp (List.append_left_eq_self.mp hchars)
  · rintro rfl
    rfl

/-- Only the empty destination has an empty readable stem. -/
theorem stem_eq_empty {destination : String} (h : stem destination = "") : destination = "" := by
  rw [stem, ← String.toList_eq_nil_iff, String.toList_ofList, List.map_eq_nil_iff] at h
  cases hchars : destination.toList with
  | nil => exact String.toList_eq_nil_iff.mp hchars
  | cons c rest =>
    rw [hchars] at h
    cases rest with
    | nil => exact absurd h (by simp [Text.replacePair])
    | cons d rest =>
      rw [Text.replacePair] at h
      split at h
      · exact absurd h (by simp)
      · exact absurd h (by simp)

/-- The file without an extension is that of the empty destination. -/
theorem dotted_mem_files_iff {ledger : Ledger} :
    ".json" ∈ (sheets ledger).map Sheet.file ↔ "" ∈ ledger.destinations := by
  have hstem : ".json" ∈ (sheets ledger).map Sheet.file ↔ "" ∈ claimAll [] ledger.destinations := by
    rw [map_file_sheets, List.mem_map]
    constructor
    · rintro ⟨stem, hin, heq⟩
      rwa [← append_json_eq.mp heq]
    · intro hin
      exact ⟨"", hin, rfl⟩
  rw [hstem]
  constructor
  · intro hin
    obtain ⟨d, hd, ⟨hreadable, -⟩ | hsuffixed⟩ := eq_of_mem_claimAll hin
    · rwa [stem_eq_empty hreadable.symm] at hd
    · -- A suffixed stem has a hyphen.
      have hchars := congrArg String.toList hsuffixed.symm
      rw [toList_suffixed] at hchars
      exact absurd hchars (by simp)
  · intro hd
    exact stem_mem_claimAll hd (by decide)

/-- Every other artifact is recognised by its extension. -/
theorem extensionOf?_ne_iff {ledger : Ledger} {name : String}
    (h : name ∈ indexFile :: (sheets ledger).map Sheet.file) :
    Path.extensionOf? name ≠ some "json" ↔ name = ".json" := by
  have hfile (stem : String) : Path.extensionOf? (stem ++ ".json") ≠ some "json" ↔
      stem ++ ".json" = ".json" := by
    rw [extensionOf?_json, append_json_eq]
    split
    · next hempty => simp [hempty]
    · next hne => simp [hne]
  rcases List.mem_cons.mp h with rfl | hin
  · exact hfile "_index"
  · rw [map_file_sheets] at hin
    obtain ⟨stem, -, rfl⟩ := List.mem_map.mp hin
    exact hfile stem

theorem simple_of_mem_files {ledger : Ledger} {name : String}
    (h : name ∈ indexFile :: (sheets ledger).map Sheet.file) : Simple name := by
  rcases List.mem_cons.mp h with rfl | hin
  · exact simple_indexFile
  · obtain ⟨sheet, hsheet, rfl⟩ := List.mem_map.mp hin
    exact simple_file hsheet

/-! ## 2. Directories with proper entries -/

/-- A tree in which everything stands in a directory, and everything in a certain place under a name
that an entry may have. -/
structure Tidy (place : Location) (tree : FileTree) : Prop where
  rooted : tree.Rooted
  simple : ∀ name, tree.get? (place ++ [name]) ≠ none → Simple name

/-- What keeps a tree tidy, and its directories. -/
def Tidying (place : Location) (tree tree' : FileTree) : Prop :=
  Tidy place tree → Tidy place tree' ∧ KeepsDirectories tree tree'

variable {place location : Location} {tree tree' : FileTree} {cwd : Location} {path : Path}

theorem composable_tidying : Composable (Tidying place) where
  refl tree h := ⟨h, .refl tree⟩
  trans h h' htidy := by
    obtain ⟨hmiddle, hkeeps⟩ := h htidy
    obtain ⟨hend, hkeeps'⟩ := h' hmiddle
    exact ⟨hend, hkeeps.trans hkeeps'⟩

theorem tidying_insert {entry : FileTree.Entry} (hfree : tree.get? location ≠ some .directory)
    (hsite : tree.get? location ≠ none ∨ tree.Site location) :
    Tidying place tree (tree.insert location entry) := by
  intro htidy
  refine ⟨⟨htidy.rooted.insert hfree hsite, fun name hname => ?_⟩,
    FileTree.keepsDirectories_insert hfree⟩
  rw [FileTree.get?_insert, if_neg (by simp)] at hname
  split at hname
  · next heq =>
    rcases hsite with hthere | ⟨parent, other, hlocation, -, hsimple, -⟩
    · exact htidy.simple name (heq ▸ hthere)
    · obtain ⟨-, hother⟩ := List.append_inj' (heq.trans hlocation) rfl
      rwa [List.singleton_inj.mp hother]
  · exact htidy.simple name hname

theorem tidying_writeFile {content : ByteArray} (h : tree.writeFile cwd path content = .ok tree') :
    Tidying place tree tree' := by
  intro htidy
  obtain ⟨hfree, hsite, rfl⟩ := FileTree.site_of_writeFile htidy.rooted h
  exact tidying_insert hfree hsite htidy

theorem tidying_removeFile (h : tree.removeFile cwd path = .ok tree') :
    Tidying place tree tree' := by
  intro htidy
  refine ⟨⟨htidy.rooted.removeFile h, fun name hname => ?_⟩, FileTree.keepsDirectories_removeFile h⟩
  obtain ⟨-, rfl⟩ := FileTree.removeFile_eq_ok h
  exact htidy.simple name (FileTree.get?_ne_none_of_erase hname)

theorem tidying_createFile {content : ByteArray} (h : tree.createFile cwd path content = .ok tree') :
    Tidying place tree tree' := by
  intro htidy
  obtain ⟨hnone, rfl⟩ := FileTree.createFile_eq_ok h
  obtain ⟨_, -, h⟩ := FileTree.exists_of_bind_eq_ok h
  obtain ⟨found, hlocate, -⟩ := FileTree.exists_of_bind_eq_ok h
  have hsite := FileTree.site_of_locate htidy.rooted hlocate
  rw [FileTree.eq_target_of_locate hlocate] at hsite
  exact tidying_insert (by simp [hnone]) hsite htidy

theorem tidying_createDirectories (tree : FileTree) (cwd : Location) (path : Path) :
    Tidying place tree (tree.createDirectories cwd path).2 := by
  refine FileTree.createDirectories_of_makeDirectory composable_tidying (fun hmake => ?_) tree path
  intro htidy
  obtain ⟨hfree, hsite, rfl⟩ := FileTree.site_of_makeDirectory htidy.rooted hmake
  exact tidying_insert (by simp [hfree]) (.inr hsite) htidy

/-- The same of a machine. -/
def KeepsTidy (place : Location) (w w' : World) : Prop :=
  w'.cwd = w.cwd ∧ Tidying place w.tree w'.tree

theorem composable_keepsTidy : Composable (KeepsTidy place) where
  refl w := ⟨rfl, composable_tidying.refl w.tree⟩
  trans h h' := ⟨h'.1.trans h.1, composable_tidying.trans h.2 h'.2⟩

theorem keepsTidy_of_change {f : FileTree → Except FileError FileTree} {w w' : World}
    {result : Except FileError Unit} (h : ∀ {tree}, f w.tree = .ok tree → Tidying place w.tree tree)
    (hrun : (World.change f).run w = (result, w')) : KeepsTidy place w w' := by
  rcases World.change_cases hrun with ⟨error, -, rfl⟩ | ⟨tree, htree, -, rfl⟩
  · exact composable_keepsTidy.refl w'
  · exact ⟨rfl, h htree⟩

variable {directory output : Path} {space : Namespace}

theorem keepsTidy_respected : Respected (KeepsTidy place) directory where
  composable := composable_keepsTidy
  list _ w := composable_keepsTidy.refl w
  isFile _ w := composable_keepsTidy.refl w
  removeFile _ w := keepsTidy_of_change tidying_removeFile (World.run_removeFile _ w)
  createDirectories path w := ⟨rfl, tidying_createDirectories w.tree w.cwd path⟩
  writeFile _ _ _ w := keepsTidy_of_change tidying_writeFile (World.run_writeFile _ _ w)
  log _ w := ⟨rfl, composable_tidying.refl w.tree⟩

/-! ## 3. What stands in a directory -/

variable {ledger : Ledger} {report : Report}
variable {w w' : World} {name : String}

/-- A regular file stands in a directory under a name. -/
def Stands (directory : Path) (w : World) (name : String) : Prop :=
  ∃ content, w.tree.content? (target w.cwd directory ++ [name]) = some content

theorem not_stands_iff (hname : Simple name) : ¬ Stands directory w name ↔
    w.tree.content? (target w.cwd (directory.entry name)) = none := by
  rw [Stands, target_entry _ _ hname, ← Option.isSome_iff_exists, Bool.not_eq_true,
    Option.isSome_eq_false_iff, Option.isNone_iff_eq_none]

/-- A directory of a machine in which everything has a proper name and every file can be reached. -/
structure Orderly (directory : Path) (w : World) : Prop where
  tidy : Tidy (target w.cwd directory) w.tree
  reach : ∀ name, Simple name → w.tree.InReach w.cwd (directory.entry name)

theorem Orderly.simple (h : Orderly directory w) (hstands : Stands directory w name) :
    Simple name := by
  obtain ⟨content, hcontent⟩ := hstands
  apply h.tidy.simple
  rw [FileTree.content?_eq_some_iff.mp hcontent]
  simp

theorem Orderly.isFile (h : Orderly directory w) (hstands : Stands directory w name) :
    w.tree.isFile w.cwd (directory.entry name) = true := by
  have hsimple := h.simple hstands
  refine (h.reach name hsimple).resolve_left fun hnone => ?_
  exact (not_stands_iff hsimple).mpr hnone hstands

/-- A directory stays orderly as long as no file comes up that is out of reach. -/
theorem Orderly.mono (h : Orderly directory w)
    (hkeeps : KeepsTidy (target w.cwd directory) w w')
    (hnew : ∀ name, Simple name → Stands directory w' name → ¬ Stands directory w name →
      w'.tree.isFile w'.cwd (directory.entry name) = true) : Orderly directory w' := by
  obtain ⟨hcwd, htidying⟩ := hkeeps
  obtain ⟨htidy, hdirectories⟩ := htidying h.tidy
  refine ⟨hcwd ▸ htidy, fun name hname => ?_⟩
  by_cases hcomes : Stands directory w' name ∧ ¬ Stands directory w name
  · exact .inr (hnew name hname hcomes.1 hcomes.2)
  · rw [hcwd]
    refine (h.reach name hname).mono hdirectories fun hnone => ?_
    rw [← hcwd]
    exact (not_stands_iff hname).mp fun hstands =>
      hcomes ⟨hstands, (not_stands_iff hname).mpr hnone⟩

/-- A file was deleted: it does not stand there any more, and all others do. -/
theorem stands_of_removeFile {old : String} (hold : Simple old)
    (h : (Host.removeFile (directory.entry old) : StateM World _).run w = (.ok (), w'))
    (name : String) : Stands directory w' name ↔ Stands directory w name ∧ name ≠ old := by
  rw [World.run_removeFile] at h
  rcases World.change_cases h with ⟨error, herror, -⟩ | ⟨tree, htree, -, rfl⟩
  · exact absurd herror (by simp)
  · have hcontent := FileTree.content?_removeFile htree (target w.cwd directory ++ [name])
    rw [target_entry _ _ hold] at hcontent
    show (∃ content, tree.content? (target w.cwd directory ++ [name]) = some content) ↔ _
    rw [hcontent]
    by_cases heq : name = old
    · simp [heq]
    · have hne : target w.cwd directory ++ [name] ≠ target w.cwd directory ++ [old] :=
        fun h => heq (List.singleton_inj.mp (List.append_cancel_left h))
      rw [if_neg hne]
      exact ⟨fun h => ⟨h, heq⟩, fun h => h.1⟩

/-- Deleting old names: the named ones with the extension go, since all files can be reached. -/
theorem stands_of_removeOld {names : List String} (hsimple : ∀ name ∈ names, Simple name)
    (horderly : Orderly directory w)
    (h : (removeOld directory names : ExceptT ArtifactError (StateM World) Unit).run.run w
      = (.ok (), w')) (name : String) :
    Stands directory w' name ↔
      Stands directory w name ∧ ¬ (name ∈ names ∧ Path.extensionOf? name = some "json") := by
  induction names generalizing w with
  | nil =>
    obtain ⟨-, rfl⟩ := Prod.mk.inj h
    simp
  | cons old rest ih =>
    obtain ⟨hold, hrest⟩ := List.forall_mem_cons.mp hsimple
    obtain ⟨answer, w₁, hlook, h⟩ := run_bind_eq_ok h
    rw [run_lift] at hlook
    obtain ⟨hanswer, rfl⟩ := Prod.mk.inj hlook
    have hanswer : w.tree.isFile w.cwd (directory.entry old) = answer := Except.ok.inj hanswer
    split at h
    · next hboth =>
      rw [Bool.and_eq_true, decide_eq_true_iff] at hboth
      obtain ⟨_, w₂, hremove, h⟩ := run_bind_eq_ok h
      have hremove := run_mapError_eq_ok hremove
      have hremoved := stands_of_removeFile hold hremove
      have horderly₂ := horderly.mono
        ((keepsTidy_respected.removeFile old).of_run hremove)
        fun name _ hstands hnot => absurd ((hremoved name).mp hstands).1 hnot
      rw [ih hrest horderly₂ h, hremoved, List.mem_cons]
      constructor
      · rintro ⟨⟨hstands, hne⟩, hkept⟩
        exact ⟨hstands, fun hgone => hkept ⟨hgone.1.resolve_left hne, hgone.2⟩⟩
      · rintro ⟨hstands, hkept⟩
        refine ⟨⟨hstands, ?_⟩, fun hgone => hkept ⟨.inr hgone.1, hgone.2⟩⟩
        rintro rfl
        exact hkept ⟨.inl rfl, hboth.2⟩
    · next hnot =>
      rw [ih hrest horderly h, List.mem_cons]
      refine and_congr_right fun hstands => not_congr (and_congr_left fun hjson => ?_)
      -- A file with the extension can be reached, so it would have been deleted.
      refine ⟨.inr, fun hin => hin.resolve_left ?_⟩
      rintro rfl
      apply hnot
      rw [← hanswer, horderly.isFile hstands, Bool.true_and]
      exact decide_eq_true hjson

/-- **Clearing a directory leaves what has another extension.** -/
theorem stands_of_clear (hne : directory.text ≠ "") (horderly : Orderly directory w)
    (h : (clear directory : ExceptT ArtifactError (StateM World) Unit).run.run w = (.ok (), w'))
    (name : String) : Stands directory w' name ↔
      Stands directory w name ∧ Path.extensionOf? name ≠ some "json" := by
  have hlisted (hstands : Stands directory w name) :
      ∃ names, w.tree.list w.cwd directory = .ok names ∧ name ∈ names :=
    FileTree.mem_list_of_isFile hne (horderly.simple hstands) (horderly.isFile hstands)
  obtain ⟨listed, w₁, hlook, h⟩ := run_bind_eq_ok h
  rw [run_lift] at hlook
  obtain ⟨hanswer, rfl⟩ := Prod.mk.inj hlook
  have hanswer : w.tree.list w.cwd directory = listed := Except.ok.inj hanswer
  subst hanswer
  split at h
  · next hnone =>
    -- What cannot be listed has no files.
    obtain ⟨-, rfl⟩ := Prod.mk.inj h
    have hempty : ¬ Stands directory w name := by
      intro hstands
      obtain ⟨names, hnames, -⟩ := hlisted hstands
      exact absurd (hnames.symm.trans hnone) (by simp)
    exact ⟨fun hstands => absurd hstands hempty, And.left⟩
  · exact absurd (Prod.mk.inj h).1 (by rintro ⟨⟩)
  · next names hnames =>
    have hsimple : ∀ name ∈ names, Simple name := fun name hname =>
      horderly.tidy.simple name (FileTree.get?_of_mem_list hnames hname)
    rw [stands_of_removeOld hsimple horderly h]
    refine and_congr_right fun hstands => not_congr (and_iff_right ?_)
    obtain ⟨names', hnames', hin⟩ := hlisted hstands
    rwa [Except.ok.inj (hnames.symm.trans hnames')]

/-! ## 4. One generation -/

theorem cwd_of_generate
    (h : (generate ledger space output : ExceptT ArtifactError (StateM World) Report).run.run w
      = (.ok report, w')) : w'.cwd = w.cwd := by
  obtain ⟨w₁, w₂, -, -, hcwd, hwrote, -⟩ := written_of_generate h
  exact hwrote.cwd.trans hcwd

/-- A generation can read all its files afterwards. -/
theorem readBytes_of_generate
    (h : (generate ledger space output : ExceptT ArtifactError (StateM World) Report).run.run w
      = (.ok report, w')) (hin : name ∈ indexFile :: (sheets ledger).map Sheet.file) :
    ∃ content,
      w'.tree.readBytes w'.cwd ((Artifact.directory space output).entry name) = .ok content := by
  obtain ⟨_, _, -, -, -, -, hsheets, hindex, -⟩ := written_of_generate h
  rcases List.mem_cons.mp hin with rfl | hin
  · exact ⟨_, hindex⟩
  · obtain ⟨sheet, hsheet, rfl⟩ := List.mem_map.mp hin
    obtain ⟨last, -, -, hcontent⟩ := hsheets sheet hsheet
    exact ⟨_, hcontent⟩

/-- A file that a generation has not written stands there if clearing has left it. -/
theorem stands_of_not_mem (horderly : Orderly (Artifact.directory space output) w)
    (h : (generate ledger space output : ExceptT ArtifactError (StateM World) Report).run.run w
      = (.ok report, w')) (hnot : name ∉ indexFile :: (sheets ledger).map Sheet.file) :
    Stands (Artifact.directory space output) w' name ↔
      Stands (Artifact.directory space output) w name ∧ Path.extensionOf? name ≠ some "json" := by
  obtain ⟨w₁, w₂, hclear, hcreate, hcwd, hwrote, -⟩ := written_of_generate h
  obtain ⟨hcwd₂, hcontents⟩ := World.same_contents_of_createDirectories hcreate
  have hcwd₁ : w₁.cwd = w.cwd := hcwd₂.symm.trans hcwd
  have hout : ¬ Entries w.cwd (Artifact.directory space output)
      (indexFile :: (sheets ledger).map Sheet.file)
      (target w.cwd (Artifact.directory space output) ++ [name]) := by
    rintro ⟨other, hin, heq⟩
    obtain rfl := List.singleton_inj.mp (List.append_cancel_left heq)
    exact hnot hin
  rw [← stands_of_clear (text_directory_ne_empty space output) horderly hclear]
  unfold Stands
  rw [cwd_of_generate h, hcwd₁, ← hcontents, hwrote.content? _ hout]

/-- **What stands in the directory after a generation** are its own files, and what clearing left. -/
theorem stands_of_generate (horderly : Orderly (Artifact.directory space output) w)
    (h : (generate ledger space output : ExceptT ArtifactError (StateM World) Report).run.run w
      = (.ok report, w')) :
    Orderly (Artifact.directory space output) w' ∧
      ∀ name, Stands (Artifact.directory space output) w' name ↔
        name ∈ indexFile :: (sheets ledger).map Sheet.file ∨
          (Stands (Artifact.directory space output) w name ∧
            Path.extensionOf? name ≠ some "json") := by
  refine ⟨horderly.mono ((keepsTidy_respected.generate ledger).of_run h) ?_, fun name => ?_⟩
  · intro name hname hnew hold
    have hin : name ∈ indexFile :: (sheets ledger).map Sheet.file := by
      by_contra hnot
      exact hold ((stands_of_not_mem horderly h hnot).mp hnew).1
    obtain ⟨content, hcontent⟩ := readBytes_of_generate h hin
    obtain ⟨hlocate, hthere⟩ := FileTree.readBytes_eq_ok_iff.mp hcontent
    exact FileTree.isFile_iff.mpr ⟨hlocate, content, hthere⟩
  · by_cases hin : name ∈ indexFile :: (sheets ledger).map Sheet.file
    · obtain ⟨content, hcontent⟩ := readBytes_of_generate h hin
      have hthere := FileTree.content?_of_readBytes hcontent
      rw [target_entry _ _ (simple_of_mem_files hin)] at hthere
      exact iff_of_true ⟨content, hthere⟩ (.inl hin)
    · rw [stands_of_not_mem horderly h hin, or_iff_right hin]

/-- Clearing a directory makes none. -/
theorem directory_of_clear {location : Location}
    (h : (clear directory : ExceptT ArtifactError (StateM World) Unit).run.run w = (.ok (), w'))
    (hdirectory : w'.tree.get? location = some .directory) :
    w.tree.get? location = some .directory := by
  have hclearing : Clearing (fun w w' : World => w'.tree.get? location = some .directory →
      w.tree.get? location = some .directory) directory := by
    refine ⟨⟨fun _ => id, fun h h' hend => h (h' hend)⟩, fun _ _ => id, fun _ _ => id, ?_⟩
    intro name w hend
    rw [World.run_removeFile] at hend
    rcases hrun : (World.change fun tree => tree.removeFile w.cwd (directory.entry name)).run w with
      ⟨result, w'⟩
    rw [hrun] at hend
    rcases World.change_cases hrun with ⟨error, -, rfl⟩ | ⟨tree, htree, -, rfl⟩
    · exact hend
    · obtain ⟨-, rfl⟩ := FileTree.removeFile_eq_ok htree
      rw [FileTree.get?_erase] at hend
      split at hend
      · next hroot => rw [hroot, FileTree.get?_nil]
      · split at hend
        · exact absurd hend (by simp)
        · exact hend
  exact hclearing.clear.of_run h hdirectory

/-- A generation into a directory whose path only goes down makes no directory in it. -/
theorem directory_of_generate (horderly : Orderly (Artifact.directory space output) w)
    (hdown : ".." ∉ (Artifact.directory space output).segments)
    (h : (generate ledger space output : ExceptT ArtifactError (StateM World) Report).run.run w
      = (.ok report, w'))
    (hdirectory : w'.tree.get? (target w.cwd (Artifact.directory space output) ++ [name])
      = some .directory) :
    w.tree.get? (target w.cwd (Artifact.directory space output) ++ [name]) = some .directory := by
  obtain ⟨w₁, w₂, hclear, hcreate, -, hwrote, -⟩ := written_of_generate h
  have hkept : KeepsTidy (target w.cwd (Artifact.directory space output)) w w₁ :=
    keepsTidy_respected.clear.of_run hclear
  obtain ⟨hcwd, htidying⟩ := hkept
  have hrooted : w₁.tree.Rooted := (htidying horderly.tidy).1.rooted
  have htree : (w₁.tree.createDirectories w₁.cwd (Artifact.directory space output)).2 = w₂.tree :=
    congrArg (fun outcome => outcome.2.tree) hcreate
  -- The writes make none, the directories on the way are not that deep, and clearing makes none.
  have hmade := (hwrote.directory _).mp hdirectory
  rw [← htree, FileTree.get?_createDirectories hrooted hdown (by rw [hcwd]; simp)] at hmade
  exact directory_of_clear hclear hmade

/-! ## 5. One generation after the other -/

/-- Somebody has worked on a machine outside of a directory: nothing in the directory has changed. If
the path of the directory goes back up, it depends on other directories than those above, so then it is
also asked that no file has come out of reach. -/
structure Elsewhere (directory : Path) (w w' : World) : Prop where
  cwd : w'.cwd = w.cwd
  rooted : w'.tree.Rooted
  entries : ∀ name, w'.tree.get? (target w.cwd directory ++ [name])
    = w.tree.get? (target w.cwd directory ++ [name])
  reach : ".." ∈ directory.segments → ∀ name,
    w.tree.isFile w.cwd (directory.entry name) = true →
      w'.tree.isFile w'.cwd (directory.entry name) = true

/-- From a machine on which a directory was missing, generations into it have succeeded for some
ledgers, the latest first, and in between others have worked elsewhere. -/
inductive Regenerated (space : Namespace) (output : Path) : List Ledger → World → Prop
  | start {w : World} (rooted : w.tree.Rooted)
      (missing : w.tree.get? (target w.cwd (Artifact.directory space output)) = none) :
      Regenerated space output [] w
  | elsewhere {older : List Ledger} {w w' : World} (before : Regenerated space output older w)
      (others : Elsewhere (Artifact.directory space output) w w') : Regenerated space output older w'
  | generation {older : List Ledger} {w w' : World} {ledger : Ledger} {report : Report}
      (before : Regenerated space output older w)
      (run : (generate ledger space output :
        ExceptT ArtifactError (StateM World) Report).run.run w = (.ok report, w')) :
      Regenerated space output (ledger :: older) w'

variable {older : List Ledger}

theorem Elsewhere.stands_iff (h : Elsewhere directory w w') (name : String) :
    Stands directory w' name ↔ Stands directory w name := by
  simp only [Stands, FileTree.content?_eq_some_iff, h.cwd, h.entries]

/-- What was in reach still is. -/
theorem Elsewhere.inReach (h : Elsewhere directory w w') (hname : Simple name)
    (hfile : w.tree.isFile w.cwd (directory.entry name) = true) :
    w'.tree.InReach w'.cwd (directory.entry name) := by
  by_cases hup : ".." ∈ directory.segments
  · exact .inr (h.reach hup name hfile)
  · obtain ⟨hacceptable, -⟩ := FileTree.locate_iff.mp (FileTree.isFile_iff.mp hfile).1
    refine FileTree.inReach_of_rooted h.rooted hname hacceptable ?_
    obtain ⟨before, hsubset, hsegments⟩ := FileTree.segments_entry directory
    rw [hsegments name hname, List.mem_append, List.mem_singleton]
    rintro (hin | heq)
    · exact hup (hsubset hin)
    · exact hname.ne_dots heq.symm

/-- Before the first generation the directory has no entries. -/
theorem get?_of_missing {tree : FileTree} {place : Location} (hrooted : tree.Rooted)
    (hmissing : tree.get? place = none) (name : String) : tree.get? (place ++ [name]) = none := by
  by_contra hthere
  exact absurd (hmissing.symm.trans (hrooted.above place name hthere)) (by simp)

/-- The directory is orderly all the time. -/
theorem orderly_of_regenerated (h : Regenerated space output older w) :
    Orderly (Artifact.directory space output) w := by
  induction h with
  | start hrooted hmissing =>
    have hnone := get?_of_missing hrooted hmissing
    refine ⟨⟨hrooted, fun name hname => absurd (hnone name) hname⟩, fun name hname => .inl ?_⟩
    rw [target_entry _ _ hname, FileTree.content?, hnone]
  | @elsewhere _ w w' before others ih =>
    refine ⟨⟨others.rooted, fun name hname => ?_⟩, fun name hname => ?_⟩
    · rw [others.cwd, others.entries] at hname
      exact ih.tidy.simple name hname
    · by_cases hstands : Stands (Artifact.directory space output) w name
      · exact others.inReach hname (ih.isFile hstands)
      · rw [← others.stands_iff, not_stands_iff hname] at hstands
        exact .inl hstands
  | generation before run ih => exact (stands_of_generate ih run).1

/-- What the next generation is going to leave: the file without an extension, if a generation has
had the empty destination. -/
theorem kept_of_regenerated (h : Regenerated space output older w) (name : String) :
    Stands (Artifact.directory space output) w name ∧ Path.extensionOf? name ≠ some "json" ↔
      name = ".json" ∧ ∃ ledger ∈ older, "" ∈ ledger.destinations := by
  induction h with
  | start hrooted hmissing =>
    have hnone := get?_of_missing hrooted hmissing name
    simp [Stands, FileTree.content?_eq_some_iff, hnone]
  | elsewhere before others ih => rw [others.stands_iff, ih]
  | @generation older w w' ledger report before run ih =>
    have hown : name ∈ indexFile :: (sheets ledger).map Sheet.file ∧
        Path.extensionOf? name ≠ some "json" ↔
          name = ".json" ∧ "" ∈ ledger.destinations := by
      rw [← dotted_mem_files_iff]
      constructor
      · rintro ⟨hin, hextension⟩
        obtain rfl := (extensionOf?_ne_iff hin).mp hextension
        exact ⟨rfl, (List.mem_cons.mp hin).resolve_left (by decide)⟩
      · rintro ⟨rfl, hin⟩
        have hin := List.mem_cons_of_mem indexFile hin
        exact ⟨hin, (extensionOf?_ne_iff hin).mpr rfl⟩
    obtain ⟨-, hstands⟩ := stands_of_generate (orderly_of_regenerated before) run
    rw [hstands, or_and_right, hown, and_assoc, and_self, ih, ← and_or_left, List.exists_mem_cons_iff]

/-- A directory whose path only goes down never has subdirectories. -/
theorem bare_of_regenerated (hdown : ".." ∉ (Artifact.directory space output).segments)
    (h : Regenerated space output older w) (name : String) :
    w.tree.get? (target w.cwd (Artifact.directory space output) ++ [name]) ≠ some .directory := by
  induction h with
  | start hrooted hmissing => simp [get?_of_missing hrooted hmissing]
  | elsewhere before others ih => rwa [others.cwd, others.entries]
  | generation before run ih =>
    rw [cwd_of_generate run]
    exact fun hdirectory =>
      ih (directory_of_generate (orderly_of_regenerated before) hdown run hdirectory)

/-- **What is left after generations one after the other** into a directory that was missing before:
the files of the last report and the index, and the file `.json` if an earlier ledger has had the empty
destination. There are no directories beside them, unless the path of the directory goes back up. -/
theorem regenerated_files_iff (hbefore : Regenerated space output older w)
    (h : (generate ledger space output : ExceptT ArtifactError (StateM World) Report).run.run w
      = (.ok report, w')) :
    (∀ name,
      (∃ content, w'.tree.content? (target w'.cwd (Artifact.directory space output) ++ [name])
        = some content) ↔
        target w'.cwd (Artifact.directory space output) ++ [name]
            ∈ (indexPath space output :: report.files).map (target w'.cwd) ∨
          (name = ".json" ∧ ∃ ledger ∈ older, "" ∈ ledger.destinations)) ∧
      (".." ∉ (Artifact.directory space output).segments → ∀ name,
        w'.tree.get? (target w'.cwd (Artifact.directory space output) ++ [name])
          ≠ some .directory) := by
  obtain ⟨-, hstands⟩ := stands_of_generate (orderly_of_regenerated hbefore) h
  refine ⟨fun name => ?_, fun hdown => bare_of_regenerated hdown (hbefore.generation h)⟩
  have hreported : target w'.cwd (Artifact.directory space output) ++ [name]
      ∈ (indexPath space output :: report.files).map (target w'.cwd) ↔
        name ∈ indexFile :: (sheets ledger).map Sheet.file := by
    obtain ⟨_, _, -, -, -, -, -, -, rfl⟩ := written_of_generate h
    have hpaths : (indexPath space output :: (sheets ledger).map fun sheet =>
        (Artifact.directory space output).entry sheet.file)
          = (indexFile :: (sheets ledger).map Sheet.file).map
            (Artifact.directory space output).entry := by
      rw [List.map_cons, List.map_map]
      rfl
    rw [hpaths, List.map_map, List.mem_map]
    constructor
    · rintro ⟨other, hin, heq⟩
      rw [Function.comp_apply, target_entry _ _ (simple_of_mem_files hin)] at heq
      rwa [← List.singleton_inj.mp (List.append_cancel_left heq)]
    · intro hin
      exact ⟨name, hin, target_entry _ _ (simple_of_mem_files hin)⟩
  have hleft := hstands name
  rwa [kept_of_regenerated hbefore, ← hreported] at hleft

/-! ## 6. Two generations -/

/-- A ledger with one operation. -/
def registrationOf (destination : String) : Ledger where
  mode := .enabled
  log := [⟨destination, "op", {}, .handler, 0⟩]

/-- Two generations on an empty machine: the report of the second and the machine after it. -/
def generateTwice (first second : Ledger) : Option Report × World :=
  match (generate first app ⟨"out"⟩ : ExceptT ArtifactError (StateM World) Report).run.run
      (World.fresh [] ⟨"/tmp"⟩) with
  | (.error _, w) => (none, w)
  | (.ok _, w) =>
    match (generate second app ⟨"out"⟩ : ExceptT ArtifactError (StateM World) Report).run.run w with
    | (.error _, w') => (none, w')
    | (.ok report, w') => (some report, w')

theorem regenerated_of_generateTwice {first second : Ledger}
    (h : generateTwice first second = (some report, w')) :
    ∃ w, Regenerated app ⟨"out"⟩ [first] w ∧
      (generate second app ⟨"out"⟩ : ExceptT ArtifactError (StateM World) Report).run.run w
        = (.ok report, w') := by
  unfold generateTwice at h
  split at h
  · exact absurd (Prod.mk.inj h).1 (by simp)
  · next _ w hfirst =>
    split at h
    · exact absurd (Prod.mk.inj h).1 (by simp)
    · next hsecond =>
      obtain ⟨hreport, rfl⟩ := Prod.mk.inj h
      obtain rfl := Option.some.inj hreport
      have hnone (location : Location) (hne : location ≠ []) :
          (World.fresh [] ⟨"/tmp"⟩).tree.get? location = none := by
        rw [FileTree.get?, if_neg hne]
        rfl
      have hstart : Regenerated app ⟨"out"⟩ [] (World.fresh [] ⟨"/tmp"⟩) := by
        refine .start ⟨fun location name hthere => ?_, fun location name hthere => ?_⟩
          (hnone _ (by decide +kernel))
        · exact absurd (hnone _ (by simp)) hthere
        · exact absurd (hnone _ (by simp)) hthere
      exact ⟨w, hstart.generation hfirst, hsecond⟩

/-- Another destination takes the place of the only one, and the file of the old one is gone. -/
theorem regenerated_files_iff_renamed :
    ∃ report w w', Regenerated app ⟨"out"⟩ [registrationOf "T"] w ∧
      (generate (registrationOf "U") app ⟨"out"⟩ :
        ExceptT ArtifactError (StateM World) Report).run.run w = (.ok report, w') ∧
      ∀ name, (∃ content, w'.tree.content? (["out", "App"] ++ [name]) = some content) ↔
        name = "_index.json" ∨ name = "U.json" := by
  rcases hrun : generateTwice (registrationOf "T") (registrationOf "U") with ⟨result, w'⟩
  have houtcome : (generateTwice (registrationOf "T") (registrationOf "U")).1.map Report.files
        = some [⟨"out/App/U.json"⟩] ∧
      (generateTwice (registrationOf "T") (registrationOf "U")).2.cwd = [] := by
    decide +kernel
  rw [hrun] at houtcome
  obtain ⟨report, rfl, hfiles⟩ := Option.map_eq_some_iff.mp houtcome.1
  obtain ⟨w, hbefore, hsecond⟩ := regenerated_of_generateTwice hrun
  refine ⟨report, w, w', hbefore, hsecond, fun name => ?_⟩
  have hiff := (regenerated_files_iff hbefore hsecond).1 name
  have hcwd : w'.cwd = [] := houtcome.2
  have hdirectory : target [] (directory app ⟨"out"⟩) = ["out", "App"] := by decide +kernel
  have hpaths : (indexPath app ⟨"out"⟩ :: report.files).map (target [])
      = [["out", "App"] ++ ["_index.json"], ["out", "App"] ++ ["U.json"]] := by
    rw [hfiles]
    decide +kernel
  have hold : "" ∉ (registrationOf "T").destinations := by decide +kernel
  rw [hcwd, hdirectory, hpaths] at hiff
  simpa [hold] using hiff

/-- **The file of the empty destination stays** when the next generation does not have it any more,
and is not among what that generation reports. -/
theorem stale_artifact_survives :
    ∃ report w w', Regenerated app ⟨"out"⟩ [registrationOf ""] w ∧
      (generate (registrationOf "T") app ⟨"out"⟩ :
        ExceptT ArtifactError (StateM World) Report).run.run w = (.ok report, w') ∧
      w'.tree.isFile w'.cwd ⟨"out/App/.json"⟩ = true ∧
      target w'.cwd ⟨"out/App/.json"⟩
        ∉ (indexPath app ⟨"out"⟩ :: report.files).map (target w'.cwd) := by
  rcases hrun : generateTwice (registrationOf "") (registrationOf "T") with ⟨result, w'⟩
  have houtcome : (generateTwice (registrationOf "") (registrationOf "T")).1.map Report.files
        = some [⟨"out/App/T.json"⟩] ∧
      (generateTwice (registrationOf "") (registrationOf "T")).2.tree.isFile
        (generateTwice (registrationOf "") (registrationOf "T")).2.cwd ⟨"out/App/.json"⟩ = true ∧
      (generateTwice (registrationOf "") (registrationOf "T")).2.cwd = [] := by
    decide +kernel
  rw [hrun] at houtcome
  obtain ⟨hreported, hthere, hcwd⟩ := houtcome
  obtain ⟨report, rfl, hfiles⟩ := Option.map_eq_some_iff.mp hreported
  obtain ⟨w, hbefore, hsecond⟩ := regenerated_of_generateTwice hrun
  refine ⟨report, w, w', hbefore, hsecond, hthere, ?_⟩
  have hcwd : w'.cwd = [] := hcwd
  rw [hcwd, hfiles]
  decide +kernel

end Graft.Artifact
