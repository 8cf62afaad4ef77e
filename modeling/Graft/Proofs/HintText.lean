/-
Which hint a text is read as.

A hint is shown without quotes, so the name of a type may be spelled like a word, like a nullable
hint or like a list, and then the text is that of two hints. `Hint.ofChars` always takes the reading
that is not a name, so that every text is the text of exactly one hint whose names read as nothing
else, which is called plain.
-/
import Graft.Hint
import Mathlib.Data.List.Basic

set_option autoImplicit false

namespace Graft.Hint

/-! ## 1. Names that read as something else -/

/-- What stands in a list hint's text between its brackets. -/
def listItem? : List Char → Option (List Char)
  | 'l' :: 'i' :: 's' :: 't' :: '<' :: rest =>
    if rest.getLast? = some '>' then some rest.dropLast else none
  | _ => none

/-- Whether a name is spelled like a hint of another kind. -/
def Disguised (name : String) : Prop :=
  (ofWord? name).isSome ∨ name.toList.head? = some '?' ∨ (listItem? name.toList).isSome

instance (name : String) : Decidable (Disguised name) :=
  inferInstanceAs (Decidable ((ofWord? name).isSome ∨ name.toList.head? = some '?' ∨
    (listItem? name.toList).isSome))

/-- A hint none of whose names is spelled like a hint of another kind. -/
def Plain : Hint → Prop
  | .list item => item.Plain
  | .nullable inner => inner.Plain
  | .named name => ¬ Disguised name
  | _ => True

theorem eq_of_listItem? {text item : List Char} (h : listItem? text = some item) :
    text = "list<".toList ++ (item ++ ['>']) := by
  unfold listItem? at h
  split at h
  · next rest =>
    split at h
    · next hlast =>
      obtain rfl := Option.some.inj h
      have hrest : rest.dropLast ++ ['>'] = rest := List.dropLast_append_getLast? _ hlast
      rw [hrest]
      rfl
    · exact absurd h (by simp)
  · exact absurd h (by simp)

theorem listItem?_list (item : List Char) :
    listItem? ("list<".toList ++ (item ++ ['>'])) = some item := by
  show (if (item ++ ['>']).getLast? = some '>' then some (item ++ ['>']).dropLast else none)
    = some item
  rw [List.getLast?_concat, List.dropLast_concat, if_pos rfl]

/-- The words are the texts of their hints. -/
theorem text_of_ofWord? {word : String} {hint : Hint} (h : ofWord? word = some hint) :
    hint.text = word ∧ hint.Plain ∧ word.toList.head? ≠ some '?' ∧ listItem? word.toList = none := by
  unfold ofWord? at h
  split at h <;> simp only [Option.some.injEq, reduceCtorEq] at h <;> subst h <;>
    exact ⟨rfl, trivial, by decide, by decide⟩

/-! ## 2. Reading -/

/-- The hint that a text is read as: a word, a nullable hint, a list, or else a name. -/
def ofChars (text : List Char) : Hint :=
  match ofWord? (String.ofList text) with
  | some word => word
  | none =>
    match text with
    | '?' :: rest => .nullable (ofChars rest)
    | text =>
      match _h : listItem? text with
      | some item => .list (ofChars item)
      | none => .named (String.ofList text)
termination_by text.length
decreasing_by
  · simp
  · have hlength := congrArg List.length (eq_of_listItem? _h)
    simp only [List.length_append, List.length_singleton] at hlength
    omega

/-- What a text is read as has that text. -/
theorem text_ofChars (text : List Char) : (ofChars text).text.toList = text := by
  fun_induction ofChars text with
  | case1 text word hword => rw [(text_of_ofWord? hword).1, String.toList_ofList]
  | case2 rest hword ih =>
    simp only [Hint.text, String.toList_append, ih]
    rfl
  | case3 text hnull item hitem hword ih =>
    simp only [Hint.text, String.toList_append, ih]
    rw [eq_of_listItem? hitem, List.append_assoc]
    rfl
  | case4 text hnull hitem hword => exact String.toList_ofList

/-- Nothing that a text is read as contains a disguised name. -/
theorem plain_ofChars (text : List Char) : (ofChars text).Plain := by
  fun_induction ofChars text with
  | case1 text word hword => exact (text_of_ofWord? hword).2.1
  | case2 rest hword ih => exact ih
  | case3 text hnull item hitem hword ih => exact ih
  | case4 text hnull hitem hword =>
    rintro (h | h | h)
    · rw [hword] at h
      exact absurd h (by simp)
    · rw [String.toList_ofList] at h
      obtain ⟨rest, rfl⟩ := List.head?_eq_some_iff.mp h
      exact hnull rest rfl
    · rw [String.toList_ofList, hitem] at h
      exact absurd h (by simp)

theorem ofChars_word {word : String} {hint : Hint} (h : ofWord? word = some hint) :
    ofChars word.toList = hint := by
  rw [ofChars.eq_def, String.ofList_toList, h]

theorem ofChars_nullable (rest : List Char) : ofChars ('?' :: rest) = .nullable (ofChars rest) := by
  have hword : ofWord? (String.ofList ('?' :: rest)) = none := by
    rw [Option.eq_none_iff_forall_not_mem]
    intro hint h
    refine (text_of_ofWord? h).2.2.1 ?_
    rw [String.toList_ofList, List.head?_cons]
  rw [ofChars.eq_def, hword]
  rfl

theorem ofChars_list (item : List Char) :
    ofChars ("list<".toList ++ (item ++ ['>'])) = .list (ofChars item) := by
  have hword : ofWord? (String.ofList ("list<".toList ++ (item ++ ['>']))) = none := by
    rw [Option.eq_none_iff_forall_not_mem]
    intro hint h
    have hnone := (text_of_ofWord? h).2.2.2
    rw [String.toList_ofList, listItem?_list] at hnone
    exact absurd hnone (by simp)
  rw [ofChars.eq_def, hword]
  show (match _h : listItem? ("list<".toList ++ (item ++ ['>'])) with
    | some item => Hint.list (ofChars item)
    | none => .named _) = _
  split
  · next found hfound =>
    rw [listItem?_list] at hfound
    rw [Option.some.inj hfound]
  · next hnone =>
    rw [listItem?_list] at hnone
    exact absurd hnone (by simp)

theorem ofChars_name {name : String} (h : ¬ Disguised name) : ofChars name.toList = .named name := by
  obtain ⟨hword, hnull, hitem⟩ : ofWord? name = none ∧ name.toList.head? ≠ some '?' ∧
      listItem? name.toList = none := by
    simpa only [Disguised, not_or, Bool.not_eq_true, Option.isSome_eq_false_iff,
      Option.isNone_iff_eq_none] using h
  rw [ofChars.eq_def, String.ofList_toList, hword]
  show (match name.toList with
    | '?' :: rest => nullable (ofChars rest)
    | text => match _h : listItem? text with
      | some item => Hint.list (ofChars item)
      | none => .named (String.ofList text)) = _
  split
  · next rest hrest =>
    rw [hrest] at hnull
    exact absurd rfl hnull
  · split
    · next item hsome =>
      rw [hitem] at hsome
      exact absurd hsome (by simp)
    · rw [String.ofList_toList]

/-- A plain hint is what its own text is read as. -/
theorem ofChars_text {hint : Hint} (h : hint.Plain) : ofChars hint.text.toList = hint := by
  induction hint with
  | list item ih =>
    have htext : (list item).text.toList = "list<".toList ++ (item.text.toList ++ ['>']) := by
      simp only [Hint.text, String.toList_append, List.append_assoc]
      rfl
    rw [htext, ofChars_list, ih h]
  | nullable inner ih =>
    have htext : (nullable inner).text.toList = '?' :: inner.text.toList := by
      simp only [Hint.text, String.toList_append]
      rfl
    rw [htext, ofChars_nullable, ih h]
  | named name => exact ofChars_name h
  | _ => exact ofChars_word rfl

/-- **Unique readability.** Plain hints with the same text are the same. -/
theorem eq_of_text_eq {hint other : Hint} (h : hint.Plain) (ho : other.Plain)
    (htext : hint.text = other.text) : hint = other := by
  rw [← ofChars_text h, htext, ofChars_text ho]

end Graft.Hint
