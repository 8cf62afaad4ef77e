/-
How namespaces are written.

The notation is a grammar: identifiers, with a pair of colons or a backslash between any two of them, and
around all of it white space and then colons and backslashes, in any number. Reading goes another way. It
writes every backslash as a pair of colons and cuts the text at the pairs, and a pair is taken wherever one
begins. So an odd colon, or a colon beside a backslash, is cut into something that is empty or has a colon
in it. Neither is an identifier, and nothing is read but what the grammar spells.

A namespace is written as a text of the grammar again, so what it is can be told from that text, and from
the components of its path as well.

The main statement is `Namespace.spelling_is_exact`.
-/
import Graft.Proofs.Ancestors
import Graft.Proofs.Containment

set_option autoImplicit false

namespace Graft

namespace Text

variable {first second c : Char} {cs xs ys : List Char} {parts : List (List Char)}

/-! ## 1. Cutting at a pair -/

theorem splitAtPair_ne_nil (first second : Char) (cs : List Char) :
    splitAtPair first second cs ≠ [] := by
  have hconsFirst (c : Char) (parts : List (List Char)) : consFirst c parts ≠ [] := by
    cases parts <;> exact List.cons_ne_nil _ _
  fun_cases splitAtPair first second cs with
  | case1 => exact List.cons_ne_nil _ _
  | case2 c => exact List.cons_ne_nil _ _
  | case3 c d rest hpair => exact List.cons_ne_nil _ _
  | case4 c d rest hpair => exact hconsFirst _ _

/-- No pair begins with another character. -/
theorem splitAtPair_cons (h : c ≠ first) :
    splitAtPair first second (c :: cs) = consFirst c (splitAtPair first second cs) := by
  cases cs with
  | nil => rfl
  | cons d rest => rw [splitAtPair, if_neg fun hpair => h hpair.1]

theorem splitAtPair_of_not_mem (h : first ∉ cs) : splitAtPair first second cs = [cs] := by
  induction cs with
  | nil => rfl
  | cons c rest ih =>
    obtain ⟨hc, hrest⟩ := List.ne_and_not_mem_of_not_mem_cons h
    rw [splitAtPair_cons (Ne.symm hc), ih hrest, consFirst]

/-- The text is cut at the first pair. -/
theorem splitAtPair_append (h : first ∉ xs) :
    splitAtPair first second (xs ++ first :: second :: ys) = xs :: splitAtPair first second ys := by
  induction xs with
  | nil => rw [List.nil_append, splitAtPair, if_pos ⟨rfl, rfl⟩]
  | cons c rest ih =>
    obtain ⟨hc, hrest⟩ := List.ne_and_not_mem_of_not_mem_cons h
    rw [List.cons_append, splitAtPair_cons (Ne.symm hc), ih hrest, consFirst]

/-- Parts without the first character of the pair are found again. -/
theorem splitAtPair_intercalate (hne : parts ≠ []) (h : ∀ part ∈ parts, first ∉ part) :
    splitAtPair first second ([first, second].intercalate parts) = parts := by
  induction parts with
  | nil => exact absurd rfl hne
  | cons part rest ih =>
    obtain ⟨hpart, hrest⟩ := List.forall_mem_cons.mp h
    cases rest with
    | nil => rw [List.intercalate_singleton, splitAtPair_of_not_mem hpart]
    | cons next more =>
      rw [List.intercalate_cons_cons, List.append_assoc, List.cons_append, List.singleton_append,
        splitAtPair_append hpart, ih (List.cons_ne_nil _ _) hrest]

theorem intercalate_consFirst (sep : List Char) (c : Char) (parts : List (List Char)) :
    sep.intercalate (consFirst c parts) = c :: sep.intercalate parts := by
  cases parts with
  | nil => rfl
  | cons part rest =>
    cases rest with
    | nil => rfl
    | cons next more =>
      rw [consFirst, List.intercalate_cons_cons, List.intercalate_cons_cons]
      rfl

/-- With the pair put back between them the parts are the text. -/
theorem intercalate_splitAtPair (first second : Char) (cs : List Char) :
    [first, second].intercalate (splitAtPair first second cs) = cs := by
  fun_induction splitAtPair first second cs with
  | case1 => rfl
  | case2 c => rfl
  | case3 c d rest hpair ih =>
    obtain ⟨rfl, rfl⟩ := hpair
    rw [List.intercalate_cons_of_ne_nil (splitAtPair_ne_nil _ _ _), ih]
    rfl
  | case4 c d rest hpair ih => rw [intercalate_consFirst, ih]

/-! ## 2. Both ends of a text -/

/-- What is left of a text when the characters of a kind are taken away at both ends, as many as there
are. -/
structure Stripped (kind : Char → Bool) (whole core : List Char) : Prop where
  around : ∃ left right, whole = left ++ (core ++ right) ∧ ∀ c ∈ left ++ right, kind c = true
  first : ∀ c ∈ core.head?, kind c = false
  last : ∀ c ∈ core.getLast?, kind c = false

/-- What does not begin with a character of the kind is where dropping stops. -/
theorem dropWhile_append_of_head {kind : Char → Bool} (hxs : ∀ c ∈ xs, kind c = true)
    (hys : ∀ c ∈ ys.head?, kind c = false) : (xs ++ ys).dropWhile kind = ys := by
  rw [List.dropWhile_append_of_pos hxs]
  cases ys with
  | nil => rfl
  | cons c rest => rw [List.dropWhile_cons_of_neg (by simp [hys c rfl])]

/-- Trimming leaves what is left, and nothing else is. -/
theorem stripped_iff {kind : Char → Bool} {whole core : List Char} :
    Stripped kind whole core ↔ trim kind whole = core := by
  constructor
  · rintro ⟨⟨left, right, rfl, haround⟩, hfirst, hlast⟩
    obtain ⟨hleft, hright⟩ := List.forall_mem_append.mp haround
    unfold trim
    by_cases hcore : core = []
    · -- Nothing is left, so everything was dropped from the front.
      rw [hcore, List.nil_append, List.dropWhile_eq_nil_iff.mpr haround]
      rfl
    · have hhead : ∀ c ∈ (core ++ right).head?, kind c = false := by
        rw [List.head?_append_of_ne_nil _ hcore]
        exact hfirst
      rw [dropWhile_append_of_head hleft hhead, List.reverse_append, dropWhile_append_of_head,
        List.reverse_reverse]
      · exact fun c hc => hright c (List.mem_reverse.mp hc)
      · rw [List.head?_reverse]
        exact hlast
  · rintro rfl
    have hstop (cs : List Char) : ∀ c ∈ (cs.dropWhile kind).head?, kind c = false := by
      intro c hc
      have hnot := List.head?_dropWhile_not kind cs
      rw [hc] at hnot
      exact hnot
    have hall (cs : List Char) : ∀ c ∈ cs.takeWhile kind, kind c = true :=
      fun _ => List.mem_takeWhile_imp
    obtain ⟨right, hkept, hright⟩ : ∃ right, whole.dropWhile kind = trim kind whole ++ right ∧
        ∀ c ∈ right, kind c = true := by
      refine ⟨((whole.dropWhile kind).reverse.takeWhile kind).reverse, ?_, ?_⟩
      · rw [trim, ← List.reverse_append, List.takeWhile_append_dropWhile, List.reverse_reverse]
      · exact fun c hc => hall _ c (List.mem_reverse.mp hc)
    refine ⟨⟨whole.takeWhile kind, right, ?_, ?_⟩, ?_, ?_⟩
    · rw [← hkept, List.takeWhile_append_dropWhile]
    · exact List.forall_mem_append.mpr ⟨hall whole, hright⟩
    · -- What is left begins with what the text began with after dropping.
      intro c hc
      apply hstop whole
      rw [hkept, List.head?_append, hc]
      rfl
    · rw [trim, List.getLast?_reverse]
      exact hstop _

end Text

namespace Namespace

variable {cs : List Char} {word : String} {segments : List String} {c : Char}

/-! ## 3. The grammar -/

/-- A letter of ASCII. -/
def Letter (c : Char) : Prop := ('a' ≤ c ∧ c ≤ 'z') ∨ ('A' ≤ c ∧ c ≤ 'Z')

/-- A digit of ASCII. -/
def Figure (c : Char) : Prop := '0' ≤ c ∧ c ≤ '9'

/-- A word that starts with a letter or an underscore and goes on with letters, digits and underscores. -/
def Identifier (word : String) : Prop :=
  ∃ first rest, word.toList = first :: rest ∧ (Letter first ∨ first = '_') ∧
    ∀ c ∈ rest, Letter c ∨ Figure c ∨ c = '_'

/-- The texts that spell a sequence of segments. -/
inductive Spelled : List Char → List String → Prop
  /-- One identifier, ... -/
  | one {word : String} (hword : Identifier word) : Spelled word.toList [word]
  /-- ... or one before a mark, which is a pair of colons or a backslash, and more of them behind it. -/
  | more {word : String} {mark rest : List Char} {segments : List String} (hword : Identifier word)
      (hmark : mark = [':', ':'] ∨ mark = ['\\']) (hrest : Spelled rest segments) :
      Spelled (word.toList ++ (mark ++ rest)) (word :: segments)

theorem isAlpha_iff : c.isAlpha = true ↔ Letter c := by
  have hlower : c.isLower = true ↔ 'a' ≤ c ∧ c ≤ 'z' :=
    Bool.and_eq_true_iff.trans (and_congr decide_eq_true_iff decide_eq_true_iff)
  have hupper : c.isUpper = true ↔ 'A' ≤ c ∧ c ≤ 'Z' := decide_eq_true_iff
  exact Bool.or_eq_true_iff.trans (or_comm.trans (or_congr hlower hupper))

theorem isDigit_iff : c.isDigit = true ↔ Figure c :=
  Bool.and_eq_true_iff.trans (and_congr decide_eq_true_iff decide_eq_true_iff)

theorem isStart_iff : isStart c = true ↔ Letter c ∨ c = '_' := by
  rw [isStart, Bool.or_eq_true, isAlpha_iff, decide_eq_true_iff]

theorem isContinuation_iff : isContinuation c = true ↔ Letter c ∨ Figure c ∨ c = '_' := by
  rw [isContinuation, Char.isAlphanum, Bool.or_eq_true, Bool.or_eq_true, isAlpha_iff, isDigit_iff,
    decide_eq_true_iff, or_assoc]

theorem isIdentifier_iff : isIdentifier word.toList = true ↔ Identifier word := by
  unfold Identifier
  cases hchars : word.toList with
  | nil => simp [isIdentifier]
  | cons first rest =>
    rw [isIdentifier, Bool.and_eq_true, List.all_eq_true, isStart_iff]
    simp only [isContinuation_iff]
    constructor
    · rintro ⟨hfirst, hrest⟩
      exact ⟨first, rest, rfl, hfirst, hrest⟩
    · rintro ⟨_, _, heq, hfirst, hrest⟩
      obtain ⟨rfl, rfl⟩ := List.cons.inj heq
      exact ⟨hfirst, hrest⟩

theorem Identifier.isContinuation_of_mem (h : Identifier word) (hc : c ∈ word.toList) :
    isContinuation c = true := by
  obtain ⟨first, rest, hchars, hfirst, hrest⟩ := h
  rw [isContinuation_iff]
  rw [hchars] at hc
  rcases List.mem_cons.mp hc with rfl | hin
  · exact hfirst.imp_right .inr
  · exact hrest c hin

theorem Identifier.not_mem (h : Identifier word) (hc : isContinuation c = false) :
    c ∉ word.toList :=
  fun hin => Bool.false_ne_true (hc.symm.trans (h.isContinuation_of_mem hin))

theorem Identifier.ne_nil (h : Identifier word) : word.toList ≠ [] := by
  obtain ⟨first, rest, hchars, -⟩ := h
  rw [hchars]
  exact List.cons_ne_nil _ _

theorem Spelled.ne_nil (h : Spelled cs segments) : cs ≠ [] := by
  cases h with
  | one hword => exact hword.ne_nil
  | more hword => exact List.append_ne_nil_of_left_ne_nil hword.ne_nil _

/-! ## 4. What reading makes of a text -/

theorem normalized_cons (c : Char) (cs : List Char) :
    normalized (c :: cs) = (if c = '\\' then [':', ':'] else [c]) ++ normalized cs := rfl

theorem normalized_append (xs ys : List Char) :
    normalized (xs ++ ys) = normalized xs ++ normalized ys := List.flatMap_append

theorem normalized_of_not_mem (h : '\\' ∉ cs) : normalized cs = cs := by
  induction cs with
  | nil => rfl
  | cons c rest ih =>
    obtain ⟨hc, hrest⟩ := List.ne_and_not_mem_of_not_mem_cons h
    rw [normalized_cons, if_neg (Ne.symm hc), ih hrest]
    rfl

/-- The first character comes from a backslash or from itself. -/
theorem normalized_eq_cons {tail : List Char} (h : normalized cs = c :: tail) :
    (∃ rest, cs = '\\' :: rest ∧ c = ':' ∧ ':' :: normalized rest = tail) ∨
      ∃ rest, cs = c :: rest ∧ normalized rest = tail := by
  cases cs with
  | nil => exact absurd h.symm (List.cons_ne_nil _ _)
  | cons d cs =>
    rw [normalized_cons] at h
    split at h
    · next hd =>
      subst hd
      obtain ⟨rfl, htail⟩ := List.cons.inj h
      exact .inl ⟨cs, rfl, rfl, htail⟩
    · obtain ⟨rfl, htail⟩ := List.cons.inj h
      exact .inr ⟨cs, rfl, htail⟩

/-- What has no colons comes from itself. -/
theorem exists_rest_of_normalized {xs tail : List Char} (hxs : ':' ∉ xs)
    (h : normalized cs = xs ++ tail) : ∃ rest, cs = xs ++ rest ∧ normalized rest = tail := by
  induction xs generalizing cs with
  | nil => exact ⟨cs, rfl, h⟩
  | cons c xs ih =>
    obtain ⟨hc, hxs⟩ := List.ne_and_not_mem_of_not_mem_cons hxs
    rcases normalized_eq_cons h with ⟨_, -, rfl, -⟩ | ⟨rest, rfl, htail⟩
    · exact absurd rfl hc
    · obtain ⟨rest, rfl, hrest⟩ := ih hxs htail
      exact ⟨rest, rfl, hrest⟩

/-- A pair of colons comes from a mark, unless there is a third one behind it: then it can come from a
colon and half of a backslash. -/
theorem exists_mark_of_normalized {tail : List Char} (htail : tail.head? ≠ some ':')
    (h : normalized cs = ':' :: ':' :: tail) : ∃ mark rest, cs = mark ++ rest ∧
      (mark = [':', ':'] ∨ mark = ['\\']) ∧ normalized rest = tail := by
  rcases normalized_eq_cons h with ⟨rest, rfl, -, hrest⟩ | ⟨rest, rfl, hsecond⟩
  · exact ⟨['\\'], rest, rfl, .inr rfl, (List.cons.inj hrest).2⟩
  · rcases normalized_eq_cons hsecond with ⟨rest, rfl, -, hthird⟩ | ⟨rest, rfl, hrest⟩
    · rw [← hthird] at htail
      exact absurd rfl htail
    · exact ⟨[':', ':'], rest, rfl, .inl rfl, hrest⟩

theorem head?_intercalate_ne_colon {next : String} (h : Identifier next) (more : List String) :
    ([':', ':'].intercalate (List.map String.toList (next :: more))).head? ≠ some ':' := by
  have hcolon : ':' ∉ next.toList := h.not_mem (by decide)
  obtain ⟨first, rest, hchars, -⟩ := h
  rw [hchars] at hcolon
  have hfirst : some first ≠ some ':' := fun heq =>
    hcolon (Option.some.inj heq ▸ List.mem_cons_self)
  cases more with
  | nil => rwa [List.map_singleton, List.intercalate_singleton, hchars]
  | cons last more => rwa [List.map_cons, List.map_cons, List.intercalate_cons_cons, hchars]

/-- A text spells segments if it is made of them when every mark is written with colons. -/
theorem spelled_iff : Spelled cs segments ↔ segments ≠ [] ∧ (∀ word ∈ segments, Identifier word) ∧
    normalized cs = [':', ':'].intercalate (segments.map String.toList) := by
  constructor
  · intro h
    induction h with
    | one hword =>
      refine ⟨List.cons_ne_nil _ _, List.forall_mem_singleton.mpr hword, ?_⟩
      rw [List.map_singleton, List.intercalate_singleton,
        normalized_of_not_mem (hword.not_mem (by decide))]
    | @more word mark rest segments hword hmark _ ih =>
      obtain ⟨hne, hall, hrest⟩ := ih
      refine ⟨List.cons_ne_nil _ _, List.forall_mem_cons.mpr ⟨hword, hall⟩, ?_⟩
      have hpair : normalized mark = [':', ':'] := by
        rcases hmark with rfl | rfl <;> rfl
      rw [normalized_append, normalized_append, normalized_of_not_mem (hword.not_mem (by decide)),
        hpair, hrest, List.map_cons, List.intercalate_cons_of_ne_nil (by simpa using hne),
        List.append_assoc]
  · -- Word by word from the left: a word comes from itself, and what follows it from a mark, since the
    -- next word does not begin with a colon.
    rintro ⟨hne, hall, htext⟩
    induction segments generalizing cs with
    | nil => exact absurd rfl hne
    | cons word rest ih =>
      obtain ⟨hword, hrest⟩ := List.forall_mem_cons.mp hall
      have hcolon : ':' ∉ word.toList := hword.not_mem (by decide)
      cases rest with
      | nil =>
        rw [List.map_singleton, List.intercalate_singleton, ← List.append_nil word.toList] at htext
        obtain ⟨tail, rfl, htail⟩ := exists_rest_of_normalized hcolon htext
        cases tail with
        | nil =>
          rw [List.append_nil]
          exact .one hword
        | cons c tail =>
          rw [normalized_cons] at htail
          split at htail <;> exact absurd htail (List.cons_ne_nil _ _)
      | cons next more =>
        have hnext := head?_intercalate_ne_colon (List.forall_mem_cons.mp hrest).1 more
        rw [List.map_cons, List.map_cons, List.intercalate_cons_cons, ← List.map_cons,
          List.append_assoc] at htext
        obtain ⟨tail, rfl, htail⟩ := exists_rest_of_normalized hcolon htext
        obtain ⟨mark, others, rfl, hmark, hothers⟩ := exists_mark_of_normalized hnext htail
        exact .more hword hmark (ih (List.cons_ne_nil _ _) hrest hothers)

theorem segmentsOf_ne_nil (cs : List Char) : segmentsOf cs ≠ [] := Text.splitAtPair_ne_nil ':' ':' _

/-- What a text spells is what it is cut into, if all of it are identifiers. -/
theorem spelled_iff_segmentsOf : Spelled cs segments ↔
    (∀ segment ∈ segmentsOf cs, isIdentifier segment = true) ∧
      (segmentsOf cs).map String.ofList = segments := by
  rw [spelled_iff, segmentsOf]
  constructor
  · rintro ⟨hne, hall, htext⟩
    -- No identifier has a colon in it, so the text is cut where the pairs were put.
    have hwords : Text.splitAtPair ':' ':' (normalized cs) = segments.map String.toList := by
      rw [htext]
      apply Text.splitAtPair_intercalate (by simpa using hne)
      intro part hpart
      obtain ⟨word, hword, rfl⟩ := List.mem_map.mp hpart
      exact (hall word hword).not_mem (by decide)
    rw [hwords]
    constructor
    · intro segment hsegment
      obtain ⟨word, hword, rfl⟩ := List.mem_map.mp hsegment
      exact isIdentifier_iff.mpr (hall word hword)
    · rw [List.map_map, Function.comp_def]
      simp
  · rintro ⟨hall, rfl⟩
    refine ⟨by simpa using Text.splitAtPair_ne_nil _ _ _, ?_, ?_⟩
    · intro word hword
      obtain ⟨segment, hsegment, rfl⟩ := List.mem_map.mp hword
      rw [← isIdentifier_iff, String.toList_ofList]
      exact hall segment hsegment
    · have hchars : ((Text.splitAtPair ':' ':' (normalized cs)).map String.ofList).map String.toList
          = Text.splitAtPair ':' ':' (normalized cs) := by
        rw [List.map_map, Function.comp_def]
        simp
      rw [hchars, Text.intercalate_splitAtPair]

/-- A backslash behind a colon does not part two words. -/
example : segmentsOf ['A', ':', '\\', 'B'] = [['A'], [':', 'B']] := by decide

/-! ## 5. Reading and writing -/

/-- What is read is what the text between both ends spells. -/
theorem parse_iff_spelled (raw : String) (segments : List String) :
    (∃ space, parse raw = .ok space ∧ space.segments = segments) ↔
      Spelled (trimmed raw.toList) segments := by
  rw [spelled_iff_segmentsOf]
  unfold parse
  dsimp only
  split
  · next hempty =>
    constructor
    · rintro ⟨space, hspace, -⟩
      cases hspace
    · -- An empty text is cut into one empty word.
      rintro ⟨hall, -⟩
      rw [List.isEmpty_iff.mp hempty, segmentsOf, normalized, List.flatMap_nil, Text.splitAtPair]
        at hall
      exact absurd (hall [] List.mem_cons_self) (by decide)
  · split
    · next h =>
      constructor
      · rintro ⟨space, hspace, hsegments⟩
        rw [← Except.ok.inj hspace] at hsegments
        dsimp only at hsegments
        exact ⟨h.2, hsegments⟩
      · rintro ⟨-, hsegments⟩
        refine ⟨_, rfl, ?_⟩
        dsimp only
        exact hsegments
    · next h =>
      constructor
      · rintro ⟨space, hspace, -⟩
        split at hspace <;> cases hspace
      · rintro ⟨hall, -⟩
        exact absurd ⟨segmentsOf_ne_nil _, hall⟩ h

/-- The characters of a spelled text belong to identifiers or to marks, and those at its ends to
identifiers. -/
theorem Spelled.characters (h : Spelled cs segments) :
    (∀ c ∈ cs, isContinuation c = true ∨ isSeparator c = true) ∧
      (∀ c ∈ cs.head?, isContinuation c = true) ∧ ∀ c ∈ cs.getLast?, isContinuation c = true := by
  induction h with
  | one hword =>
    exact ⟨fun c hc => .inl (hword.isContinuation_of_mem hc),
      fun c hc => hword.isContinuation_of_mem (List.mem_of_head? hc),
      fun c hc => hword.isContinuation_of_mem (List.mem_of_getLast? hc)⟩
  | @more word mark rest segments hword hmark hrest ih =>
    obtain ⟨hall, -, hlast⟩ := ih
    have hseparators : ∀ c ∈ mark, isSeparator c = true := by
      rcases hmark with rfl | rfl <;> simp [isSeparator]
    refine ⟨?_, ?_, ?_⟩
    · intro c hc
      rcases List.mem_append.mp hc with hin | hin
      · exact .inl (hword.isContinuation_of_mem hin)
      · rcases List.mem_append.mp hin with hin | hin
        · exact .inr (hseparators c hin)
        · exact hall c hin
    · intro c hc
      rw [List.head?_append_of_ne_nil _ hword.ne_nil] at hc
      exact hword.isContinuation_of_mem (List.mem_of_head? hc)
    · intro c hc
      rw [← List.append_assoc, List.getLast?_append_of_ne_nil _ hrest.ne_nil] at hc
      exact hlast c hc

/-- Where the characters of identifiers stand in ASCII. -/
theorem toNat_of_isContinuation (h : isContinuation c = true) :
    (48 ≤ c.toNat ∧ c.toNat ≤ 57) ∨ (65 ≤ c.toNat ∧ c.toNat ≤ 90) ∨ c.toNat = 95 ∨
      (97 ≤ c.toNat ∧ c.toNat ≤ 122) := by
  rw [isContinuation_iff] at h
  rcases h with hletter | hfigure | rfl
  · simp only [Letter, Char.le_def, UInt32.le_iff_toNat_le, Char.reduceVal, UInt32.reduceToNat]
      at hletter
    unfold Char.toNat
    omega
  · simp only [Figure, Char.le_def, UInt32.le_iff_toNat_le, Char.reduceVal, UInt32.reduceToNat]
      at hfigure
    unfold Char.toNat
    omega
  · exact .inr (.inr (.inl rfl))

/-- Identifiers have no character that is taken away at the ends of a text. -/
theorem not_trimmed_of_isContinuation (h : isContinuation c = true) :
    Text.isBlank c = false ∧ isSeparator c = false := by
  have hplace := toNat_of_isContinuation h
  constructor
  · simp only [Text.isBlank, Bool.or_eq_false_iff, Bool.and_eq_false_iff, decide_eq_false_iff_not,
      beq_eq_false_iff_ne]
    omega
  · rw [isSeparator, Bool.or_eq_false_iff, decide_eq_false_iff_not, decide_eq_false_iff_not]
    constructor <;> rintro rfl <;> revert hplace <;> decide

/-- A spelled text is read as it is. -/
theorem Spelled.trimmed_eq (h : Spelled cs segments) : trimmed cs = cs := by
  obtain ⟨-, hfirst, hlast⟩ := h.characters
  have hends {kind : Char → Bool} (hkind : ∀ c, isContinuation c = true → kind c = false) :
      Text.trim kind cs = cs := by
    refine Text.stripped_iff.mp ⟨⟨[], [], ?_, by simp⟩, ?_, ?_⟩
    · rw [List.nil_append, List.append_nil]
    · exact fun c hc => hkind c (hfirst c hc)
    · exact fun c hc => hkind c (hlast c hc)
  rw [trimmed, hends fun c hc => (not_trimmed_of_isContinuation hc).1,
    hends fun c hc => (not_trimmed_of_isContinuation hc).2]

/-- Identifiers with pairs of colons between them spell these identifiers. -/
theorem spelled_intercalate (hne : segments ≠ []) (h : ∀ word ∈ segments, Identifier word) :
    Spelled ([':', ':'].intercalate (segments.map String.toList)) segments := by
  induction segments with
  | nil => exact absurd rfl hne
  | cons word rest ih =>
    obtain ⟨hword, hrest⟩ := List.forall_mem_cons.mp h
    cases rest with
    | nil =>
      rw [List.map_singleton, List.intercalate_singleton]
      exact .one hword
    | cons next more =>
      rw [List.map_cons, List.map_cons, List.intercalate_cons_cons, ← List.map_cons,
        List.append_assoc]
      exact .more hword (.inl rfl) (ih (List.cons_ne_nil _ _) hrest)

theorem spelled_text (space : Namespace) : Spelled space.text.toList space.segments := by
  rw [text, String.toList_intercalate]
  exact spelled_intercalate space.nonempty fun word hword =>
    isIdentifier_iff.mp (space.identifiers word hword)

/-- A namespace is read again from what it is written as. -/
theorem parse_text (space : Namespace) : parse space.text = .ok space := by
  have hspelled : Spelled (trimmed space.text.toList) space.segments := by
    rw [(spelled_text space).trimmed_eq]
    exact spelled_text space
  obtain ⟨found, hfound, hsegments⟩ := (parse_iff_spelled space.text space.segments).mpr hspelled
  rw [hfound, eq_of_segments_eq hsegments]

theorem text_inj {space other : Namespace} : space.text = other.text ↔ space = other := by
  constructor
  · intro htext
    apply Except.ok.inj
    rw [← parse_text space, htext, parse_text other]
  · rintro rfl
    rfl

end Namespace

namespace Path

open FileTree (Simple)

/-! ## 6. Components of paths -/

/-- What a path is made of. Paths are compared by these and not by their texts. -/
inductive Component
  | root
  /-- A dot at the beginning. -/
  | current
  /-- Two dots. -/
  | parent
  | name (text : String)
  deriving DecidableEq

/-- What a segment adds to the components; the first one may add something in front of that. -/
def component? (segment : String) : Option Component :=
  if isFiller segment then none
  else if segment = ".." then some .parent
  else some (.name segment)

/-- The components of a path. -/
def components (path : Path) : List Component :=
  (if path.isAbsolute then [.root]
    else if path.segments.head? = some "." then [.current]
    else []) ++ path.segments.filterMap component?

theorem component?_of_simple {name : String} (h : Simple name) :
    component? name = some (.name name) := by
  rw [component?, if_neg (isFiller_iff.not.mpr (not_or.mpr ⟨h.ne_empty, h.ne_dot⟩)),
    if_neg h.ne_dots]

/-- A path that is made of names goes through them. -/
theorem segments_ofNames {names : List String} (hne : names ≠ [])
    (h : ∀ name ∈ names, Simple name) : (ofNames names).segments = names := by
  induction names using List.reverseRecOn with
  | nil => exact absurd rfl hne
  | append_singleton names name ih =>
    obtain ⟨hnames, hname⟩ := List.forall_mem_append.mp h
    have hname : Simple name := hname name List.mem_cons_self
    rw [ofNames, List.foldl_append, List.foldl_cons, List.foldl_nil, ← ofNames]
    -- None of the names is empty: so what is in front of the last one does not end in a slash, and is
    -- the empty path only if there are no names in it.
    have hfilled : names ≠ [] → "" ∉ (ofNames names).segments := by
      intro hne hin
      rw [ih hne hnames] at hin
      exact (hnames "" hin).ne_empty rfl
    by_cases hempty : names = []
    · have hentry : (ofNames []).entry name = ⟨name⟩ := by
        rcases FileTree.entry_cases (ofNames []) hname with ⟨-, hentry⟩ | ⟨before, hbase, -⟩ | ⟨hne, -⟩
        · exact hentry
        · exact absurd (congrArg Path.text hbase) (by simp [ofNames])
        · exact absurd rfl hne
      rw [hempty, hentry, FileTree.segments_of_slash_not_mem hname.slash, List.nil_append]
    · rcases FileTree.entry_cases (ofNames names) hname with ⟨htext, -⟩ | ⟨before, hbase, -⟩ | ⟨-, hentry⟩
      · refine absurd ?_ (hfilled hempty)
        rw [segments, htext]
        decide
      · refine absurd ?_ (hfilled hempty)
        rw [hbase, FileTree.segments_slash]
        exact List.mem_append_right _ List.mem_cons_self
      · rw [hentry, FileTree.segments_append_slash _ hname.slash, ih hempty hnames]

/-- The components of such a path are the names. -/
theorem components_ofNames {names : List String} (hne : names ≠ [])
    (h : ∀ name ∈ names, Simple name) : (ofNames names).components = names.map .name := by
  have habsolute : (ofNames names).isAbsolute = false :=
    (FileTree.target_foldl_entry [] ⟨""⟩ h).2
  have hhead : names.head? ≠ some "." := fun hdot =>
    (h "." (List.mem_of_head? hdot)).ne_dot rfl
  have hall : names.filterMap component? = names.map .name := by
    rw [← List.filterMap_eq_map]
    exact List.filterMap_congr fun name hin => component?_of_simple (h name hin)
  rw [components, segments_ofNames hne h, habsolute, if_neg Bool.false_ne_true, if_neg hhead,
    List.nil_append, hall]

end Path

namespace Namespace

/-- The path of a namespace has a component for each segment. -/
theorem components_path (space : Namespace) : space.path.components = space.segments.map .name :=
  Path.components_ofNames space.nonempty fun _ hin => Artifact.simple_of_mem_segments hin

theorem components_path_inj {space other : Namespace} :
    space.path.components = other.path.components ↔ space = other := by
  constructor
  · intro hcomponents
    rw [components_path, components_path] at hcomponents
    exact eq_of_segments_eq
      (List.map_inj_right (fun _ _ => Path.Component.name.inj) |>.mp hcomponents)
  · rintro rfl
    rfl

/-- **The notation of namespaces.** A text is read if, without white space and then without colons and
backslashes around it, it spells identifiers, and what is read are these; every namespace is read again
from what it is written as; and namespaces that are written the same, or have the same components in their
paths, which are one for each segment, are the same. -/
theorem spelling_is_exact :
    (∀ raw segments, (∃ space, parse raw = .ok space ∧ space.segments = segments) ↔
      ∃ inner core, Text.Stripped Text.isBlank raw.toList inner ∧
        Text.Stripped isSeparator inner core ∧ Spelled core segments) ∧
    (∀ space, parse space.text = .ok space) ∧
    (∀ space other : Namespace, space.text = other.text ↔ space = other) ∧
    (∀ space other : Namespace, space.path.components = other.path.components ↔ space = other) ∧
    ∀ space : Namespace, space.path.components = space.segments.map .name := by
  refine ⟨?_, parse_text, fun _ _ => text_inj, fun _ _ => components_path_inj, components_path⟩
  intro raw segments
  rw [parse_iff_spelled]
  constructor
  · intro h
    exact ⟨_, _, Text.stripped_iff.mpr rfl, Text.stripped_iff.mpr rfl, h⟩
  · rintro ⟨inner, core, hinner, hcore, h⟩
    obtain rfl := Text.stripped_iff.mp hinner
    obtain rfl := Text.stripped_iff.mp hcore
    exact h

end Namespace

end Graft
