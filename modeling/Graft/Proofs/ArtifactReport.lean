/-
What a generation reports is what it has written.

The files of the destinations, the entries of the index, the names in the report and the number of
methods are gathered in one pass over a ledger. They agree with one another and with the ledger, if the
destinations get files of their own: every destination that was registered has its file, with its
methods and at least one, in the order of first registration; the index lists them so; and the number of
methods is the number of different operations that were registered.

The main statement is `Artifact.agrees_of_generate`.
-/
import Graft.Proofs.FingerprintText
import Graft.Proofs.Overwriting
import Graft.Proofs.Written
import Mathlib.Algebra.GroupWithZero.Nat
import Mathlib.Data.List.Forall2

set_option autoImplicit false

namespace Graft

/-! ## 1. Operations of a ledger -/

namespace Ledger

variable {ledger : Ledger} {destination : String}

/-- Every registration as the operation that it is of. -/
def operations (ledger : Ledger) : List (String × String) :=
  ledger.log.map fun r => (r.destination, r.name)

/-- The destinations come in the order in which they were first registered. -/
theorem destinations_eq_eraseDups (ledger : Ledger) :
    ledger.destinations = (ledger.log.map Registration.destination).eraseDups :=
  OrderedSet.toList_ofList _

theorem length_methods (ledger : Ledger) (destination : String) :
    (ledger.methods destination).length
      = ((ledger.latestBindings destination).map Registration.name).length := by
  rw [methods, List.length_map, List.length_map]

theorem nodup_names (ledger : Ledger) (destination : String) :
    ((ledger.latestBindings destination).map Registration.name).Nodup := by
  rw [map_name_latestBindings]
  exact (ledger.latestMap destination).keys_nodup

/-- The names that the latest registrations go under are those of all registrations. -/
theorem mem_names {name : String} :
    name ∈ (ledger.latestBindings destination).map Registration.name
      ↔ (destination, name) ∈ ledger.operations := by
  rw [map_name_latestBindings, ← OrderedMap.contains_iff_mem_keys, OrderedMap.contains,
    ← latest?_eq_get?, operations, List.mem_map]
  constructor
  · intro h
    obtain ⟨r, hr⟩ := Option.isSome_iff_exists.mp h
    obtain ⟨hlog, rfl, rfl⟩ := mem_bindings_of_latest? hr
    exact ⟨r, hlog, rfl⟩
  · rintro ⟨r, hlog, heq⟩
    obtain ⟨rfl, rfl⟩ := Prod.mk.inj heq
    rw [latest?, List.find?_isSome]
    refine ⟨r, List.mem_reverse.mpr (mem_bindings.mpr ⟨hlog, rfl⟩), decide_eq_true rfl⟩

/-- The operations in the order in which the methods of all destinations come. -/
def listed (ledger : Ledger) : List (String × String) :=
  ledger.destinations.flatMap fun d =>
    ((ledger.latestBindings d).map Registration.name).map (d, ·)

theorem length_listed (ledger : Ledger) :
    ledger.listed.length = (ledger.destinations.map fun d => (ledger.methods d).length).sum := by
  rw [listed, List.length_flatMap]
  congr 1
  apply List.map_congr_left
  intro d _
  rw [List.length_map]
  exact (ledger.length_methods d).symm

/-- Different destinations have different operations, and one destination has no name twice. -/
theorem nodup_listed (ledger : Ledger) : ledger.listed.Nodup := by
  refine List.nodup_flatMap.mpr ⟨fun d _ => ?_, ?_⟩
  · refine (ledger.nodup_names d).map fun name name' heq => ?_
    exact (Prod.mk.inj heq).2
  · refine (nodup_destinations ledger).imp fun {d d'} hne => ?_
    intro pair hpair hpair'
    obtain ⟨name, -, rfl⟩ := List.mem_map.mp hpair
    obtain ⟨name', -, heq⟩ := List.mem_map.mp hpair'
    exact hne (Prod.mk.inj heq).1.symm

theorem mem_listed {pair : String × String} : pair ∈ ledger.listed ↔ pair ∈ ledger.operations := by
  obtain ⟨d, name⟩ := pair
  rw [listed, List.mem_flatMap]
  constructor
  · rintro ⟨d', -, hin⟩
    obtain ⟨name', hname, heq⟩ := List.mem_map.mp hin
    obtain ⟨rfl, rfl⟩ := Prod.mk.inj heq
    exact mem_names.mp hname
  · intro hin
    obtain ⟨r, hlog, heq⟩ := List.mem_map.mp hin
    obtain ⟨rfl, rfl⟩ := Prod.mk.inj heq
    exact ⟨r.destination, mem_destinations.mpr ⟨r, hlog, rfl⟩,
      List.mem_map_of_mem (mem_names.mpr hin)⟩

/-- **Every operation that was ever registered is counted once** when the methods of all destinations
are counted. -/
theorem sum_length_methods (ledger : Ledger) :
    (ledger.destinations.map fun d => (ledger.methods d).length).sum
      = ledger.operations.eraseDups.length := by
  have hsame : ∀ pair, pair ∈ ledger.listed ↔ pair ∈ ledger.operations.eraseDups := by
    intro pair
    rw [mem_listed, List.mem_eraseDups]
  rw [← length_listed]
  exact ((List.perm_ext_iff_of_nodup ledger.nodup_listed (nodup_eraseDups _)).mpr hsame).length_eq

end Ledger

/-! ## 2. Sheets of a ledger -/

namespace Artifact

open Refresh (blockedWorld)

variable {ledger : Ledger} {space : Namespace} {output : Path} {report : Report} {w w' : World}

/-- There is a sheet for every destination, in their order. -/
theorem map_destination_sheets (ledger : Ledger) :
    (sheets ledger).map Sheet.destination = ledger.destinations := by
  rw [sheets, described_eq, List.map_map]
  exact List.map_fst_zip (by rw [length_claimAll])

theorem methods_of_mem_sheets {sheet : Sheet} (h : sheet ∈ sheets ledger) :
    sheet.methods = ledger.methods sheet.destination := by
  obtain ⟨⟨destination, stem⟩, -, rfl⟩ := List.mem_map.mp h
  rfl

/-- The sheet of a destination under a file name. -/
def sheetFor (ledger : Ledger) (destination file : String) : Sheet :=
  ⟨destination, file, ledger.methods destination⟩

theorem sheetFor_eq {sheet : Sheet} (h : sheet ∈ sheets ledger) :
    sheetFor ledger sheet.destination sheet.file = sheet := by
  rw [sheetFor, ← methods_of_mem_sheets h]

/-- The sheets are told by their destinations and their files. -/
theorem sheets_eq (ledger : Ledger) :
    sheets ledger
      = List.zipWith (sheetFor ledger) ledger.destinations ((sheets ledger).map Sheet.file) := by
  have hsame : (sheets ledger).map (fun sheet => sheetFor ledger sheet.destination sheet.file)
      = sheets ledger := by
    conv_rhs => rw [← List.map_id (sheets ledger)]
    apply List.map_congr_left
    intro sheet hsheet
    exact sheetFor_eq hsheet
  conv_rhs => rw [← map_destination_sheets ledger, List.zipWith_map, List.zipWith_self]
  exact hsame.symm

theorem foldr_methods (sheets : List Sheet) :
    sheets.foldr (fun sheet count => sheet.methods.length + count) 0
      = (sheets.map fun sheet => sheet.methods.length).sum := by
  rw [List.sum_eq_foldr, List.foldr_map]

/-! ## 3. Reports -/

/-- A report, the files and the index agree with the ledger. The names are those of the files in the
directory, one for each destination. -/
structure Agrees (ledger : Ledger) (space : Namespace) (output : Path) (report : Report)
    (names : List String) (w : World) : Prop where
  directory : report.directory = Artifact.directory space output
  /-- Destinations come in the order in which they were first registered. -/
  order : ledger.destinations = (ledger.log.map Registration.destination).eraseDups
  files : report.files = names.map report.directory.entry
  /-- Each file holds the methods of its destination, and there are some. -/
  sheets : List.Forall₂ (fun destination name => ledger.methods destination ≠ [] ∧
    w.tree.readBytes w.cwd (report.directory.entry name)
      = .ok (content ((sheetFor ledger destination name).json space))) ledger.destinations names
  index : w.tree.readBytes w.cwd (report.directory.entry "_index.json")
    = .ok (content (indexJson space ledger.fingerprint
        (List.zipWith (sheetFor ledger) ledger.destinations names)))
  fingerprint : report.fingerprint = ledger.fingerprint
  sum : report.methods = (ledger.destinations.map fun d => (ledger.methods d).length).sum
  /-- Every operation that was registered counts once. -/
  operations : report.methods = ledger.operations.eraseDups.length

/-- **Files, index and report agree with the ledger.** If a generation succeeds and the stems that were
claimed for its destinations are pairwise distinct, then whatever the directory held before, every
destination has its file with exactly its methods, the index lists the destinations with their files,
and the report counts what was written and what was registered. -/
theorem agrees_of_generate (hdistinct : (claimAll [] ledger.destinations).Nodup)
    (h : (generate ledger space output : ExceptT ArtifactError (StateM World) Report).run.run w
      = (.ok report, w')) :
    ∃ names, Agrees ledger space output report names w' := by
  obtain ⟨_, _, -, -, -, -, hsheets, hindex, rfl⟩ := written_of_generate h
  have hnodup := (nodup_files_iff ledger).mpr hdistinct
  have hsum : (sheets ledger).foldr (fun sheet count => sheet.methods.length + count) 0
      = (ledger.destinations.map fun d => (ledger.methods d).length).sum := by
    rw [foldr_methods, ← map_destination_sheets, List.map_map]
    congr 1
    apply List.map_congr_left
    intro sheet hsheet
    exact congrArg List.length (methods_of_mem_sheets hsheet)
  refine ⟨(sheets ledger).map Sheet.file, rfl, ledger.destinations_eq_eraseDups, ?_, ?_, ?_, rfl, hsum,
    hsum.trans ledger.sum_length_methods⟩
  · rw [List.map_map]
    rfl
  · rw [← map_destination_sheets, List.forall₂_map_left_iff, List.forall₂_map_right_iff,
      List.forall₂_same]
    intro sheet hsheet
    have hdestination : sheet.destination ∈ ledger.destinations := by
      rw [← map_destination_sheets]
      exact List.mem_map_of_mem hsheet
    refine ⟨Ledger.methods_ne_nil hdestination, ?_⟩
    -- The last sheet that went to the file is the only one.
    obtain ⟨last, hlast, hfile, hread⟩ := hsheets sheet hsheet
    obtain rfl := List.inj_on_of_nodup_map hnodup hlast hsheet hfile
    rw [sheetFor_eq hsheet]
    exact hread
  · rw [← sheets_eq]
    exact hindex

/-- Two destinations, and one operation that was registered twice. -/
def threeRegistrations : Ledger where
  mode := .enabled
  log := [⟨"app::T", "op", {}, .handler, 0⟩, ⟨"U", "one", {}, .handler, 1⟩,
    ⟨"app::T", "op", {}, .named "N", 2⟩]

/-- A generation over a directory with an old file. -/
theorem agrees_of_generate_three :
    ∃ report names w',
      (generate threeRegistrations ⟨["App"], by decide, by decide⟩ ⟨"out"⟩ :
        ExceptT ArtifactError (StateM World) Report).run.run blockedWorld = (.ok report, w') ∧
      report.files = [⟨"out/App/app.T.json"⟩, ⟨"out/App/U.json"⟩] ∧ report.methods = 2 ∧
      Agrees threeRegistrations ⟨["App"], by decide, by decide⟩ ⟨"out"⟩ report names w' := by
  rcases hrun : (generate threeRegistrations ⟨["App"], by decide, by decide⟩ ⟨"out"⟩ :
    ExceptT ArtifactError (StateM World) Report).run.run blockedWorld with ⟨result, w'⟩
  have houtcome : (((generate threeRegistrations ⟨["App"], by decide, by decide⟩ ⟨"out"⟩ :
      ExceptT ArtifactError (StateM World) Report).run.run blockedWorld).1.toOption.map
        fun report => (report.files, report.methods))
      = some ([⟨"out/App/app.T.json"⟩, ⟨"out/App/U.json"⟩], 2) := by
    decide +kernel
  rw [hrun] at houtcome
  cases result with
  | error error => exact absurd houtcome (by simp [Except.toOption])
  | ok report =>
    obtain ⟨hfiles, hmethods⟩ := Prod.mk.inj (Option.some.inj houtcome)
    have hdistinct : (claimAll [] threeRegistrations.destinations).Nodup := by decide +kernel
    obtain ⟨names, hagrees⟩ := agrees_of_generate hdistinct hrun
    exact ⟨report, names, w', rfl, hfiles, hmethods, hagrees⟩

end Artifact

end Graft
