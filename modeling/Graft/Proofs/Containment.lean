/-
Where a generation does anything.

The directory of a namespace is found from the output directory by going down one segment after the
other. Whatever a generation removes or writes is an entry of that directory, under a name that ends
in `.json`: destinations are arbitrary texts, but nothing in the name of a file leads elsewhere. A
namespace that is nested in another one has its directory among the entries of the other's, and its
files are one step further down, so the two never meet.

The main statement is `generate_stays_in_directory`. It holds on every precise machine, at whichever
operation a generation fails.
-/
import Graft.Proofs.Generation
import Graft.Proofs.Precise
import Graft.Proofs.Retrying

set_option autoImplicit false

namespace Graft

open FileTree (Location Simple OnTheWay target target_entry enter)

/-- A name with the extension ends in it. -/
theorem Path.exists_stem_of_extensionOf? {name : String}
    (h : extensionOf? name = some "json") : ∃ stem, name = stem ++ ".json" := by
  unfold extensionOf? at h
  simp only at h
  split at h
  · next dot c rest hdrop =>
    -- From the end on, the name is the extension, the dot and the rest.
    have hdot : dot = '.' := by
      have hhead := List.head_dropWhile_not (fun d : Char => decide (d ≠ '.'))
        (l := name.toList.reverse) (by rw [hdrop]; simp)
      simp only [hdrop, List.head_cons] at hhead
      simpa using hhead
    have htail : (name.toList.reverse.takeWhile fun d => decide (d ≠ '.')) = ['n', 'o', 's', 'j'] := by
      have hchars := congrArg String.toList (Option.some.inj h)
      rw [String.toList_ofList] at hchars
      exact List.reverse_eq_iff.mp hchars
    have hsplit := List.takeWhile_append_dropWhile (p := fun d : Char => decide (d ≠ '.'))
      (l := name.toList.reverse)
    rw [htail, hdrop, hdot] at hsplit
    refine ⟨String.ofList (c :: rest).reverse, ?_⟩
    rw [← String.toList_inj, String.toList_append, String.toList_ofList, ← List.reverse_inj,
      ← hsplit, List.reverse_append, List.reverse_reverse]
    rfl
  · exact absurd h (by simp)

/-- A namespace is nothing but its segments. -/
theorem Namespace.eq_of_segments_eq {space other : Namespace}
    (h : space.segments = other.segments) : space = other := by
  cases space
  cases other
  cases h
  rfl

namespace Artifact

/-! ## 1. Directories of namespaces -/

theorem simple_of_mem_segments {space : Namespace} {name : String} (h : name ∈ space.segments) :
    Simple name :=
  simple_of_isIdentifier (space.identifiers name h)

/-- The directory of a namespace is below the output directory, by its segments. -/
theorem target_directory (cwd : Location) (space : Namespace) (output : Path) :
    target cwd (directory space output) = target cwd output ++ space.segments := by
  obtain ⟨htarget, habsolute⟩ := FileTree.target_foldl_entry (target cwd output) ⟨""⟩
    fun name (hname : name ∈ space.segments) => simple_of_mem_segments hname
  have hrelative : space.path.isAbsolute = false := habsolute
  rw [directory, FileTree.target_join _ _ hrelative]
  -- Seen from the output directory, the path of the namespace leads down its segments.
  rw [target, habsolute] at htarget
  exact htarget

/-- Entries of the directories of different namespaces are in different places, also when one of the
namespaces is nested in the other. -/
theorem eq_of_entry_eq {space other : Namespace} {place : Location} {name name' : String}
    (h : place ++ space.segments ++ [name] = place ++ other.segments ++ [name']) :
    space = other := by
  obtain ⟨hsegments, -⟩ := List.append_inj' h rfl
  exact Namespace.eq_of_segments_eq (List.append_cancel_left hsegments)

/-! ## 2. What a generation may touch -/

/-- The places of artifacts: the entries of a directory whose names end in `.json`. -/
def ArtifactPlace (place location : Location) : Prop :=
  ∃ stem, location = place ++ [stem ++ ".json"]

/-- Everything that stands in a directory has a name that an entry can have. -/
def Named (tree : FileTree) (place : Location) : Prop :=
  ∀ name, tree.get? (place ++ [name]) ≠ none → Simple name

variable {σ : Type} {files : Files σ} {cwd : Location} {directory : Path} {s s' : σ}

/-- Nothing is done but to the artifacts in a directory and to the directories on the way to it. -/
def Stays (files : Files σ) (cwd : Location) (directory : Path) : σ → σ → Prop :=
  files.BoundedFrom cwd (ArtifactPlace (target cwd directory)) (OnTheWay cwd directory)

theorem composable_stays : Composable (Stays files cwd directory) := Files.composable_boundedFrom

theorem stays_of_same (h : files.Same s s') : Stays files cwd directory s s' := fun _ => h.bounded

/-- What is done to one artifact stays in the directory. -/
theorem stays_of_artifact {stem : String} (hstem : Simple (stem ++ ".json"))
    (h : files.Bounded (· = target (files.cwd s) (directory.entry (stem ++ ".json")))
      (fun _ => False) s s') : Stays files cwd directory s s' := by
  intro hcwd
  apply h.mono
  · intro location hlocation
    rw [hlocation, hcwd, target_entry _ _ hstem]
    exact ⟨stem, rfl⟩
  · exact fun _ => False.elim

section

variable [Host (StateM σ)]

theorem filling_stays (hprecise : files.Precise) : Filling (Stays files cwd directory) directory where
  composable := composable_stays
  createDirectories s := by
    intro hcwd
    apply (hprecise.createDirectories directory s).mono
    · exact fun _ => False.elim
    · rw [hcwd]
      exact fun _ => id
  writeFile stem content hstem s :=
    stays_of_artifact (simple_json hstem) (hprecise.writeFile _ content s)
  log event s := stays_of_same (hprecise.log event s)

/-- Only old artifacts are removed, since only entries of the directory are listed. -/
theorem stays_of_clear (hprecise : files.Precise)
    (hnamed : Named (files.tree s) (target (files.cwd s) directory))
    {result : Except ArtifactError Unit}
    (h : (clear directory : ExceptT ArtifactError (StateM σ) Unit).run.run s = (result, s')) :
    Stays files cwd directory s s' := by
  have hlisted := hprecise.listed directory s
  have hsame := hprecise.list directory s
  rcases run_bind_cases h with ⟨error, hlook, -⟩ | ⟨listed, t, hlook, hrest⟩
  · rw [run_lift] at hlook
    exact absurd (Prod.mk.inj hlook).1 (by simp)
  · rw [run_lift] at hlook
    obtain ⟨hnames, rfl⟩ := Prod.mk.inj hlook
    refine composable_stays.trans (stays_of_same hsame) (Keeps.of_run ?_ hrest)
    split
    · exact Keeps.pure composable_stays _
    · exact Keeps.pure composable_stays _
    · next names =>
      refine keeps_removeOld composable_stays (fun path s => stays_of_same (hprecise.isFile path s)) ?_
      intro name hname hextension s
      have hsimple := hnamed name (hlisted names (Except.ok.inj hnames) name hname)
      obtain ⟨stem, rfl⟩ := Path.exists_stem_of_extensionOf? hextension
      exact stays_of_artifact hsimple (hprecise.removeFile _ s)

/-- However it ends, a generation stays in the directory of its namespace. -/
theorem stays_of_generate (hprecise : files.Precise) {ledger : Ledger} {space : Namespace}
    {output : Path}
    (hnamed : Named (files.tree s) (target (files.cwd s) (Artifact.directory space output)))
    {result : Except ArtifactError Report}
    (h : (generate ledger space output : ExceptT ArtifactError (StateM σ) Report).run.run s
      = (result, s')) : Stays files cwd (Artifact.directory space output) s s' := by
  obtain ⟨cleared, t, hclear, hfilled⟩ := (filling_stays hprecise).of_generate h
  exact composable_stays.trans (stays_of_clear hprecise hnamed hclear) hfilled

/-! ## 3. The main statement -/

/-- **A generation stays in its own directory.** Whether it succeeds or fails, regular files only come
up, change or go away among the entries of the output directory and the segments of the namespace
whose names end in `.json`, and directories are only made on the way there. No sheet goes to the
index. What stands in the directory of any other namespace below the same output directory is
afterwards what it was before. -/
theorem generate_stays_in_directory (hprecise : files.Precise) (ledger : Ledger) (space : Namespace)
    (output : Path) (s : σ)
    (hnamed : Named (files.tree s) (target (files.cwd s) (Artifact.directory space output))) :
    let place := target (files.cwd s) output
    let s' := ((generate ledger space output : ExceptT ArtifactError (StateM σ) Report).run.run s).2
    files.Bounded (ArtifactPlace (place ++ space.segments))
        (OnTheWay (files.cwd s) (Artifact.directory space output)) s s' ∧
      (∀ sheet ∈ sheets ledger,
        target (files.cwd s) ((Artifact.directory space output).entry sheet.file)
          ≠ target (files.cwd s) (indexPath space output)) ∧
      ∀ other : Namespace, other ≠ space → ∀ name,
        (files.tree s').content? (place ++ other.segments ++ [name])
          = (files.tree s).content? (place ++ other.segments ++ [name]) := by
  intro place s'
  have hstays : Stays files (files.cwd s) (Artifact.directory space output) s s' :=
    stays_of_generate hprecise hnamed rfl
  have hbounded := hstays rfl
  rw [target_directory] at hbounded
  refine ⟨hbounded, ?_, ?_⟩
  · intro sheet hsheet heq
    rw [indexPath, target_entry _ _ (simple_file hsheet), target_entry _ _ simple_indexFile] at heq
    have hfile := List.singleton_inj.mp (List.append_cancel_left heq)
    exact file_ne_indexFile hsheet hfile
  · intro other hother name
    apply hbounded.content?
    rintro ⟨stem, heq⟩
    exact hother (eq_of_entry_eq heq)

end

/-- A machine on which the artifact of one namespace cannot be written, since a directory is in its
place, and with the index of a namespace that is nested in it. -/
def nestedWorld : World where
  tree := (Refresh.blockedWorld.tree.insert ["out", "App", "Sub"] .directory).insert
    ["out", "App", "Sub", "_index.json"] (.file "kept".toUTF8)
  cwd := []
  temporary := ⟨"tmp"⟩
  events := []

/-- The nested namespace. -/
def appSub : Namespace := ⟨["App", "Sub"], by decide, by decide⟩

theorem named_nestedWorld : Named nestedWorld.tree ["out", "App"] := by
  intro name hthere
  have hkey : ["out", "App", name] ∈ nestedWorld.tree.entries.keys := by
    apply (OrderedMap.contains_iff_mem_keys _ _).mp
    exact Option.isSome_iff_ne_none.mpr hthere
  have hkeys : nestedWorld.tree.entries.keys = [["out"], ["out", "App"],
      ["out", "App", "_index.json"], ["out", "App", "T.json"], ["out", "App", "Sub"],
      ["out", "App", "Sub", "_index.json"]] := by decide +kernel
  have hcases : name = "_index.json" ∨ name = "T.json" ∨ name = "Sub" := by
    simpa [hkeys] using hkey
  rcases hcases with rfl | rfl | rfl
  · exact simple_indexFile
  · exact ⟨by decide, by decide, by decide, by decide⟩
  · exact ⟨by decide, by decide, by decide, by decide⟩

/-- A generation that fails at a sheet leaves the index of the nested namespace. -/
theorem generate_stays_in_directory_nested :
    let refresh := Refresh.actionFor "out"
    let outcome := (generate Refresh.oneRegistration refresh.space refresh.output :
      ExceptT ArtifactError (StateM World) Report).run.run nestedWorld
    outcome.1.isOk = false ∧
      Named nestedWorld.tree (target [] (Artifact.directory refresh.space refresh.output)) ∧
      outcome.2.tree.content? ["out", "App", "Sub", "_index.json"] = some "kept".toUTF8 := by
  intro refresh outcome
  have hplace : target [] (Artifact.directory refresh.space refresh.output) = ["out", "App"] := by
    decide +kernel
  have hnamed : Named nestedWorld.tree
      (target [] (Artifact.directory refresh.space refresh.output)) := by
    rw [hplace]
    exact named_nestedWorld
  have hother : appSub ≠ refresh.space := by
    intro heq
    have hsegments := congrArg Namespace.segments heq
    exact absurd hsegments (by decide)
  refine ⟨by decide +kernel, hnamed, ?_⟩
  have hkept := (generate_stays_in_directory World.precise Refresh.oneRegistration refresh.space
    refresh.output nestedWorld hnamed).2.2 appSub hother "_index.json"
  have houtput : target (World.files.cwd nestedWorld) refresh.output = ["out"] := by
    decide +kernel
  rw [houtput] at hkept
  exact hkept

end Artifact

end Graft
