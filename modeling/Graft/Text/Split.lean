/-
Texts cut at a separator of one or of two characters, and the replacement of a pair of characters.

Pairs are found from the left and do not overlap, so that of three colons the first two form a pair.
-/
set_option autoImplicit false

namespace Graft.Text

/-- Puts a character in front of the first part. -/
def consFirst (c : Char) : List (List Char) → List (List Char)
  | [] => [[c]]
  | part :: parts => (c :: part) :: parts

/-- The parts of a text between the occurrences of a character. -/
def splitAt (separator : Char) : List Char → List (List Char)
  | [] => [[]]
  | c :: cs =>
    if c = separator then [] :: splitAt separator cs else consFirst c (splitAt separator cs)

/-- The parts of a text between the occurrences of a pair of characters. -/
def splitAtPair (first second : Char) : List Char → List (List Char)
  | [] => [[]]
  | [c] => [[c]]
  | c :: d :: rest =>
    if c = first ∧ d = second then [] :: splitAtPair first second rest
    else consFirst c (splitAtPair first second (d :: rest))

/-- The text with every occurrence of a pair of characters replaced. -/
def replacePair (first second : Char) (replacement : List Char) : List Char → List Char
  | [] => []
  | [c] => [c]
  | c :: d :: rest =>
    if c = first ∧ d = second then replacement ++ replacePair first second replacement rest
    else c :: replacePair first second replacement (d :: rest)

theorem splitAt_ne_nil (separator : Char) (cs : List Char) : splitAt separator cs ≠ [] := by
  cases cs with
  | nil => simp [splitAt]
  | cons c cs =>
    simp only [splitAt]
    split
    · simp
    · cases splitAt separator cs <;> simp [consFirst]

theorem splitAt_of_not_mem {separator : Char} {cs : List Char} (h : separator ∉ cs) :
    splitAt separator cs = [cs] := by
  induction cs with
  | nil => rfl
  | cons c cs ih =>
    obtain ⟨hc, hcs⟩ := List.ne_and_not_mem_of_not_mem_cons h
    rw [splitAt, if_neg (Ne.symm hc), ih hcs, consFirst]

/-- A separator in a text parts it, and either side is split on its own. -/
theorem splitAt_append_cons (separator : Char) (xs ys : List Char) :
    splitAt separator (xs ++ separator :: ys) = splitAt separator xs ++ splitAt separator ys := by
  induction xs with
  | nil => simp [splitAt]
  | cons c xs ih =>
    rw [List.cons_append, splitAt, splitAt, ih]
    split
    · rfl
    · obtain ⟨first, rest, hsplit⟩ := List.exists_cons_of_ne_nil (splitAt_ne_nil separator xs)
      rw [hsplit]
      rfl

end Graft.Text
