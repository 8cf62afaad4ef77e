/-
Where a text falls apart at a separator.

A separator of several characters is found again only if the text before it does not contain it and
if it cannot begin before the place where it was put. The second is a property of the separator
alone: no end of it is also a start of it. With both, what stands before the first separator is
determined, and what stands behind the last one likewise.
-/
import Mathlib.Data.List.Infix

set_option autoImplicit false

namespace Graft.Text

variable {sep text x x' y y' : List Char} {c : Char}

/-! ## 1. Separators -/

/-- A separator does not occur in a text. -/
def FreeOf (sep text : List Char) : Prop := ¬ sep <:+: text

instance (sep text : List Char) : Decidable (FreeOf sep text) :=
  inferInstanceAs (Decidable (¬ sep <:+: text))

/-- No proper end of a separator is a start of it, so two occurrences never overlap. -/
def Borderless (sep : List Char) : Prop := ∀ rest ∈ sep.tails, rest <+: sep → rest = [] ∨ rest = sep

instance (sep : List Char) : Decidable (Borderless sep) :=
  inferInstanceAs (Decidable (∀ rest ∈ sep.tails, rest <+: sep → rest = [] ∨ rest = sep))

theorem FreeOf.ne_nil (h : FreeOf sep text) : sep ≠ [] := by
  rintro rfl
  exact h List.nil_infix

theorem FreeOf.reverse (h : FreeOf sep text) : FreeOf sep.reverse text.reverse :=
  fun hin => h (List.reverse_infix.mp hin)

theorem freeOf_singleton_iff : FreeOf [c] text ↔ c ∉ text := by
  unfold FreeOf
  rw [List.singleton_infix_iff]

/-- A character that does not belong to the separator keeps the two sides apart. -/
theorem FreeOf.append_cons (hx : FreeOf sep x) (hc : c ∉ sep) (hy : FreeOf sep y) :
    FreeOf sep (x ++ c :: y) := by
  have hright : FreeOf sep (c :: y) := by
    intro hin
    rcases List.infix_cons_iff.mp hin with hstart | hin
    · obtain ⟨d, rest, hsep⟩ := List.exists_cons_of_ne_nil hx.ne_nil
      rw [hsep, List.cons_prefix_cons] at hstart
      rw [hsep, hstart.1] at hc
      exact hc List.mem_cons_self
    · exact hy hin
  -- On the left, on the right, or across: then the separator would contain the character.
  intro hin
  rcases List.infix_append_iff_ne_nil.mp hin with hin | hin | ⟨s, t, -, ht, hsep, -, hstart⟩
  · exact hx hin
  · exact hright hin
  · obtain ⟨d, rest, rfl⟩ := List.exists_cons_of_ne_nil ht
    rw [hsep, (List.cons_prefix_cons.mp hstart).1] at hc
    exact hc (List.mem_append_right _ List.mem_cons_self)

/-- A character that the separator does not start with may stand in front. -/
theorem FreeOf.cons (hy : FreeOf sep y) (hc : sep.head? ≠ some c) : FreeOf sep (c :: y) := by
  intro hin
  rcases List.infix_cons_iff.mp hin with hstart | hin
  · obtain ⟨d, rest, hsep⟩ := List.exists_cons_of_ne_nil hy.ne_nil
    rw [hsep, List.cons_prefix_cons] at hstart
    rw [hsep, hstart.1, List.head?_cons] at hc
    exact hc rfl
  · exact hy hin

/-! ## 2. Falling apart -/

/-- The separator cannot be found any earlier than behind a text without it. -/
theorem eq_nil_of_separator_eq (hsep : Borderless sep) (hfree : FreeOf sep (x ++ text))
    (h : sep ++ y = text ++ (sep ++ y')) : text = [] := by
  rcases List.append_eq_append_iff.mp h with ⟨rest, htext, -⟩ | ⟨rest, hcut, hrest⟩
  · exact absurd ⟨x, rest, by rw [htext, List.append_assoc]⟩ hfree
  · -- The separator starts `text` short of itself: what is left of it starts it again.
    have hend : rest ∈ sep.tails := (List.mem_tails rest sep).mpr ⟨text, hcut.symm⟩
    have hlength : rest.length ≤ sep.length := by
      rw [hcut, List.length_append]
      omega
    have hstart : rest <+: sep :=
      List.prefix_of_prefix_length_le ⟨y, hrest.symm⟩ (List.prefix_append sep y') hlength
    rcases hsep rest hend hstart with rfl | rfl
    · rw [List.append_nil] at hcut
      exact absurd ⟨x, [], by rw [hcut, List.append_nil]⟩ hfree
    · exact List.self_eq_append_left.mp hcut

/-- What stands before the first separator is determined, and so is all behind it. -/
theorem append_inj_of_freeOf (hsep : Borderless sep) (hx : FreeOf sep x) (hx' : FreeOf sep x')
    (h : x ++ (sep ++ y) = x' ++ (sep ++ y')) : x = x' ∧ y = y' := by
  have heq : x = x' := by
    -- One of the two texts is the longer one; what it has more is empty.
    rcases List.append_eq_append_iff.mp h with ⟨rest, rfl, hrest⟩ | ⟨rest, rfl, hrest⟩
    · rw [eq_nil_of_separator_eq hsep hx' hrest, List.append_nil]
    · rw [eq_nil_of_separator_eq hsep hx hrest, List.append_nil]
  subst heq
  exact ⟨rfl, List.append_cancel_left (List.append_cancel_left h)⟩

/-- What stands behind the last separator is determined, and so is all before it. -/
theorem append_inj_of_freeOf_right (hsep : Borderless sep.reverse) (hy : FreeOf sep y)
    (hy' : FreeOf sep y') (h : x ++ (sep ++ y) = x' ++ (sep ++ y')) : x = x' ∧ y = y' := by
  have hback : y.reverse ++ (sep.reverse ++ x.reverse) = y'.reverse ++ (sep.reverse ++ x'.reverse) := by
    simpa only [List.reverse_append, List.append_assoc] using congrArg List.reverse h
  obtain ⟨hyy, hxx⟩ := append_inj_of_freeOf hsep hy.reverse hy'.reverse hback
  exact ⟨List.reverse_injective hxx, List.reverse_injective hyy⟩

/-- A single character is found again behind a text without it. -/
theorem append_inj_of_not_mem (hx : c ∉ x) (hx' : c ∉ x')
    (h : x ++ c :: y = x' ++ c :: y') : x = x' ∧ y = y' := by
  have hsep : Borderless [c] := by simp [Borderless]
  exact append_inj_of_freeOf hsep (freeOf_singleton_iff.mpr hx) (freeOf_singleton_iff.mpr hx') h

end Graft.Text
