/-
The paths above a path.

A path goes through the names between its slashes, and the path above it goes through all of them but
the last. As long as no name leads back up, every name is one step further down. So the directories that
are made on the way to a path are no deeper than where it leads, and nothing is made in the directory at
its end.
-/
import Graft.Proofs.Growing

set_option autoImplicit false

namespace Graft

namespace Path

variable {path parent above : Path}

/-! ## 1. Names on the way -/

theorem isFiller_iff {segment : String} : isFiller segment = true ↔ segment = "" ∨ segment = "." := by
  rw [isFiller, Bool.or_eq_true, decide_eq_true_iff, decide_eq_true_iff]

/-- The segments of a path that name something. -/
def names (path : Path) : List String := path.segments.filter (fun segment => !isFiller segment)

theorem up_mem_names_iff : ".." ∈ path.names ↔ ".." ∈ path.segments := by
  rw [names, List.mem_filter]
  exact and_iff_left (by decide)

theorem segments_intercalate {names : List String} (hne : names ≠ [])
    (hslash : ∀ name ∈ names, '/' ∉ name.toList) :
    segments ⟨String.intercalate "/" names⟩ = names := by
  induction names with
  | nil => exact absurd rfl hne
  | cons name rest ih =>
    obtain ⟨hname, hrest⟩ := List.forall_mem_cons.mp hslash
    cases rest with
    | nil =>
      rw [String.intercalate_singleton, segments, Text.splitAt_of_not_mem hname]
      simp
    | cons next rest =>
      have hchars : (String.intercalate "/" (name :: next :: rest)).toList
          = name.toList ++ '/' :: (String.intercalate "/" (next :: rest)).toList := by
        rw [String.intercalate_cons_cons]
        simp
      rw [segments, hchars, Text.splitAt_append_cons, Text.splitAt_of_not_mem hname,
        List.singleton_append, List.map_cons, String.ofList_toList]
      exact congrArg (name :: ·) (ih (by simp) hrest)

/-! ## 2. Components -/

/-- What is dropped names nothing. -/
theorem filter_dropFillers (segments : List String) :
    (dropFillers segments).filter (fun segment => !isFiller segment)
      = segments.filter (fun segment => !isFiller segment) := by
  fun_induction dropFillers segments with
  | case1 => rfl
  | case2 first => rfl
  | case3 segment rest hne hfiller ih => rw [ih, List.filter_cons_of_neg (by simp [hfiller])]
  | case4 segment rest hne hname => rfl

/-- The first segment of a path stays, also if it names nothing. -/
theorem dropFillers_suffix (segments : List String) : dropFillers segments <:+ segments := by
  fun_induction dropFillers segments with
  | case1 => exact List.suffix_rfl
  | case2 first => exact List.suffix_rfl
  | case3 segment rest hne hfiller ih => exact ih.trans (List.suffix_cons _ _)
  | case4 segment rest hne hname => exact List.suffix_rfl

theorem dropFillers_ne_nil {segments : List String} (h : segments ≠ []) :
    dropFillers segments ≠ [] := by
  fun_induction dropFillers segments with
  | case1 => exact h
  | case2 first => exact h
  | case3 segment rest hne hfiller ih => exact ih (by rintro rfl; exact hne rfl)
  | case4 segment rest hne hname => exact List.cons_ne_nil _ _

theorem getLast?_dropFillers (segments : List String) :
    (dropFillers segments).getLast? = segments.getLast? := by
  fun_induction dropFillers segments with
  | case1 => rfl
  | case2 first => rfl
  | case3 segment rest hne hfiller ih =>
    obtain ⟨next, others, rfl⟩ := List.exists_cons_of_ne_nil hne
    rw [ih, List.getLast?_cons_cons]
  | case4 segment rest hne hname => rfl

theorem names_eq_reverse (path : Path) :
    path.names = (path.reversed.filter fun segment => !isFiller segment).reverse := by
  rw [names, reversed, filter_dropFillers, List.filter_reverse, List.reverse_reverse]

theorem slash_not_mem_of_mem_reversed {segment : String} (h : segment ∈ path.reversed) :
    '/' ∉ segment.toList :=
  FileTree.slash_not_mem_of_mem_segments
    (List.mem_reverse.mp ((dropFillers_suffix _).mem h))

/-- All entries of a directory are put into one directory, however its path is written. -/
theorem directory_entry_eq (base : Path) {name other : String} (hname : FileTree.Simple name)
    (hother : FileTree.Simple other) :
    (base.entry name).directory = (base.entry other).directory := by
  obtain ⟨before, -, hsegments⟩ := FileTree.segments_entry base
  have hreversed {name : String} (h : FileTree.Simple name) :
      (base.entry name).reversed = name :: before.reverse := by
    have hname : isFiller name = false := by
      rw [Bool.eq_false_iff, Ne, isFiller_iff, not_or]
      exact ⟨h.ne_empty, h.ne_dot⟩
    rw [reversed, hsegments name h, List.reverse_append, List.reverse_singleton,
      List.singleton_append]
    cases before.reverse with
    | nil => rfl
    | cons last rest =>
      rw [dropFillers, if_neg (by simp [hname])]
      exact List.cons_ne_nil last rest
  unfold directory parent?
  rw [hreversed hname, hreversed hother]
  -- What stands in front of the name is the same for both.
  cases before.reverse with
  | nil =>
    simp only
    rw [if_neg hname.ne_empty, if_neg hother.ne_empty]
  | cons last rest => rfl

/-- What stands above a component are the components in front of it. -/
theorem parent?_cases (h : path.parent? = some parent) :
    (∃ first, first ≠ "" ∧ path.reversed = [first] ∧ parent = ⟨""⟩) ∨
      ∃ last rest, rest ≠ [] ∧ path.reversed = last :: rest ∧
        ((dropFillers rest = [""] ∧ parent = ⟨"/"⟩) ∨
          (dropFillers rest ≠ [""] ∧
            parent = ⟨String.intercalate "/" (dropFillers rest).reverse⟩)) := by
  unfold parent? at h
  split at h
  · exact absurd h (by simp)
  · next first hreversed =>
    split at h
    · exact absurd h (by simp)
    · next hne => exact .inl ⟨first, hne, hreversed, (Option.some.inj h).symm⟩
  · next last rest hrest hreversed =>
    refine .inr ⟨last, rest, ?_, hreversed, ?_⟩
    · rintro rfl
      exact hrest rfl
    · split at h
      · next hroot => exact .inl ⟨hroot, (Option.some.inj h).symm⟩
      · next hroot => exact .inr ⟨hroot, (Option.some.inj h).symm⟩

/-- The path above goes through the same names, without the last. -/
theorem names_of_parent? (h : path.parent? = some parent) : parent.names <+: path.names := by
  rcases parent?_cases h with ⟨first, -, -, rfl⟩ | ⟨last, rest, hrest, hreversed, hparent⟩
  · exact List.nil_prefix
  · have hnames : parent.names = (rest.filter fun segment => !isFiller segment).reverse := by
      rw [← filter_dropFillers]
      rcases hparent with ⟨hroot, rfl⟩ | ⟨-, rfl⟩
      · rw [hroot]
        rfl
      · have hslash : ∀ name ∈ (dropFillers rest).reverse, '/' ∉ name.toList := by
          intro name hname
          have hin : name ∈ path.reversed := by
            rw [hreversed]
            exact List.mem_cons_of_mem _
              ((dropFillers_suffix rest).mem (List.mem_reverse.mp hname))
          exact slash_not_mem_of_mem_reversed hin
        have hne : (dropFillers rest).reverse ≠ [] := by
          rw [Ne, List.reverse_eq_nil_iff]
          exact dropFillers_ne_nil hrest
        rw [names, segments_intercalate hne hslash, List.filter_reverse]
    rw [hnames, names_eq_reverse, hreversed, List.reverse_prefix]
    exact (List.suffix_cons last rest).filter _

/-- The first component of an absolute path is empty. -/
theorem getLast?_reversed (h : path.isAbsolute = true) : path.reversed.getLast? = some "" := by
  obtain ⟨rest, hchars⟩ := List.head?_eq_some_iff.mp (of_decide_eq_true h)
  rw [reversed, getLast?_dropFillers, List.getLast?_reverse, segments, hchars, Text.splitAt,
    if_pos rfl]
  rfl

/-- Above an absolute path there are absolute paths only. -/
theorem isAbsolute_of_parent? (h : path.parent? = some parent) (habsolute : path.isAbsolute = true) :
    parent.isAbsolute = true := by
  have hlast := getLast?_reversed habsolute
  rcases parent?_cases h with ⟨first, hne, hreversed, rfl⟩ | ⟨last, rest, hrest, hreversed, hparent⟩
  · rw [hreversed] at hlast
    exact absurd (Option.some.inj hlast) hne
  · rcases hparent with ⟨-, rfl⟩ | ⟨hroot, rfl⟩
    · rfl
    · -- In front of the other components stands nothing but the slash.
      have hhead : (dropFillers rest).reverse.head? = some "" := by
        rw [List.head?_reverse, getLast?_dropFillers]
        rw [hreversed, List.getLast?_cons_of_ne_nil hrest] at hlast
        exact hlast
      obtain ⟨others, hkept⟩ := List.head?_eq_some_iff.mp hhead
      have hothers : others ≠ [] := by
        rintro rfl
        exact hroot (List.reverse_eq_iff.mp hkept)
      rw [hkept, String.intercalate_cons_of_ne_nil hothers, isAbsolute]
      simp

/-- All paths above a path go through its first names, and start where it starts. -/
theorem names_of_mem_ancestors (h : above ∈ path.ancestors) :
    above.names <+: path.names ∧ (path.isAbsolute = true → above.isAbsolute = true) := by
  have hgo (n : Nat) (path : Path) (h : above ∈ ancestors.go n path) :
      above.names <+: path.names ∧ (path.isAbsolute = true → above.isAbsolute = true) := by
    induction n generalizing path with
    | zero =>
      obtain rfl := List.mem_singleton.mp h
      exact ⟨List.prefix_rfl, id⟩
    | succ n ih =>
      rw [ancestors.go] at h
      split at h
      · next parent hparent =>
        rcases List.mem_cons.mp h with rfl | hin
        · exact ⟨List.prefix_rfl, id⟩
        · obtain ⟨hnames, habsolute⟩ := ih parent hin
          exact ⟨hnames.trans (names_of_parent? hparent),
            fun h => habsolute (isAbsolute_of_parent? hparent h)⟩
      · obtain rfl := List.mem_singleton.mp h
        exact ⟨List.prefix_rfl, id⟩
  exact hgo _ path h

end Path

/-! ## 3. Depth -/

namespace FileTree

variable {tree : FileTree} {cwd location : Location} {path above : Path}

/-- Going down, every name is one step. -/
theorem length_foldl_enter {segments : List String} (hdown : ".." ∉ segments)
    (location : Location) : (segments.foldl enter location).length
      = location.length + (segments.filter fun segment => !Path.isFiller segment).length := by
  induction segments generalizing location with
  | nil => rfl
  | cons segment rest ih =>
    obtain ⟨hsegment, hrest⟩ := List.ne_and_not_mem_of_not_mem_cons hdown
    rw [List.foldl_cons, ih hrest, enter]
    by_cases hfiller : Path.isFiller segment = true
    · rw [if_pos (Path.isFiller_iff.mp hfiller), List.filter_cons_of_neg (by simp [hfiller])]
    · rw [if_neg (mt Path.isFiller_iff.mpr hfiller), if_neg (Ne.symm hsegment),
        List.filter_cons_of_pos (by simp [hfiller])]
      simp only [List.length_append, List.length_cons, List.length_nil]
      omega

/-- The paths above a path lead no deeper. -/
theorem length_target_le (h : above ∈ path.ancestors) (hdown : ".." ∉ path.segments) :
    (target cwd above).length ≤ (target cwd path).length := by
  obtain ⟨hnames, habsolute⟩ := Path.names_of_mem_ancestors h
  have habove : ".." ∉ above.segments := by
    rw [← Path.up_mem_names_iff] at hdown ⊢
    exact fun hin => hdown (hnames.mem hin)
  have hlength := hnames.length_le
  rw [Path.names, Path.names] at hlength
  rw [target, target, length_foldl_enter habove, length_foldl_enter hdown]
  cases hpath : path.isAbsolute with
  | true =>
    rw [habsolute hpath]
    omega
  | false =>
    split
    · rw [List.length_nil, if_neg (by simp)]
      omega
    · rw [if_neg (by simp)]
      omega

/-- Nothing is made below where a path leads that only goes down. -/
theorem get?_createDirectories (hrooted : tree.Rooted) (hdown : ".." ∉ path.segments)
    (hbelow : (target cwd path).length < location.length) :
    (tree.createDirectories cwd path).2.get? location = tree.get? location := by
  have hR : Composable fun tree tree' : FileTree =>
      tree.Rooted → tree'.Rooted ∧ tree'.get? location = tree.get? location := by
    refine ⟨fun _ hrooted => ⟨hrooted, rfl⟩, fun h h' hrooted => ?_⟩
    obtain ⟨hmiddle, heq⟩ := h hrooted
    obtain ⟨hend, heq'⟩ := h' hmiddle
    exact ⟨hend, heq'.trans heq⟩
  refine (createDirectories_of_ancestors hR (fun hin hmake hrooted => ?_) tree hrooted).2
  refine ⟨hrooted.makeDirectory hmake, ?_⟩
  obtain ⟨-, -, rfl⟩ := site_of_makeDirectory hrooted hmake
  have hlength : (target cwd _).length ≤ (target cwd path).length := length_target_le hin hdown
  rw [get?_insert, if_neg, if_neg]
  · rintro rfl
    omega
  · rintro rfl
    exact absurd hbelow (by simp)

end FileTree

end Graft
