/-
JSON trees written as text, on one line or spread over lines.

Strings escape quotes, backslashes and control characters and nothing else. The two layouts differ
only in the break before an item and in the text after a field's name; an empty array or object is
written without a break in either.
-/
import Graft.Json.Basic
import Graft.Text.Hex

set_option autoImplicit false

namespace Graft.Json

/-! ## 1. Strings -/

/-- A character as it stands in a string. -/
def escapeChar (c : Char) : List Char :=
  if c = '"' then ['\\', '"']
  else if c = '\\' then ['\\', '\\']
  else if c = '\n' then ['\\', 'n']
  else if c = '\r' then ['\\', 'r']
  else if c = '\t' then ['\\', 't']
  else if c.toNat = 8 then ['\\', 'b']
  else if c.toNat = 12 then ['\\', 'f']
  else if c.toNat < 0x20 then
    ['\\', 'u', '0', '0', Hex.digit (c.toNat / 16), Hex.digit (c.toNat % 16)]
  else [c]

/-- Letters and figures stand in a string as they are. -/
theorem escapeChar_of_isAlphanum {c : Char} (h : c.isAlphanum = true) : escapeChar c = [c] := by
  have hlow : 0x30 ≤ c.toNat := by
    change ((decide (65 ≤ c.val ∧ _) || decide (97 ≤ c.val) && _) || decide (48 ≤ c.val) && _)
      = true at h
    simp only [Bool.or_eq_true, Bool.and_eq_true, decide_eq_true_eq, UInt32.le_iff_toNat_le] at h
    change (65 ≤ c.toNat ∧ _ ∨ 97 ≤ c.toNat ∧ _) ∨ 48 ≤ c.toNat ∧ _ at h
    omega
  have hne (d : Char) (hd : d.isAlphanum = false) : c ≠ d := by
    rintro rfl
    exact absurd h (by rw [hd]; decide)
  unfold escapeChar
  rw [if_neg (hne _ (by decide)), if_neg (hne _ (by decide)), if_neg (hne _ (by decide)),
    if_neg (hne _ (by decide)), if_neg (hne _ (by decide)), if_neg (by omega), if_neg (by omega),
    if_neg (by omega)]

theorem flatMap_escapeChar_of_isAlphanum {cs : List Char} (h : ∀ c ∈ cs, c.isAlphanum = true) :
    cs.flatMap escapeChar = cs := by
  induction cs with
  | nil => rfl
  | cons c rest ih =>
    obtain ⟨hc, hrest⟩ := List.forall_mem_cons.mp h
    rw [List.flatMap_cons, escapeChar_of_isAlphanum hc, ih hrest]
    rfl

/-- A string literal. A string that spells no text is written as a lone surrogate, which again
spells none. -/
def writeString : Option String → List Char
  | some text => '"' :: text.toList.flatMap escapeChar ++ ['"']
  | none => ['"', '\\', 'u', 'd', '8', '0', '0', '"']

/-! ## 2. Trees -/

/-- A layout: the break before an item or a closing bracket at a depth, and the text between a
name and its value. -/
structure Style where
  lineBreak : Nat → List Char
  colon : List Char

/-- Everything on one line, without spaces. -/
def Style.compact : Style := ⟨fun _ => [], [':']⟩

/-- One item or field a line, two spaces deeper for each level. -/
def Style.pretty : Style := ⟨fun depth => '\n' :: List.replicate (2 * depth) ' ', [':', ' ']⟩

mutual

/-- A tree at a depth. -/
def write (style : Style) (depth : Nat) : Json → List Char
  | .null => ['n', 'u', 'l', 'l']
  | .bool true => ['t', 'r', 'u', 'e']
  | .bool false => ['f', 'a', 'l', 's', 'e']
  | .number literal => literal.toList
  | .string spelled => writeString spelled
  | .array [] => ['[', ']']
  | .array (item :: items) =>
    '[' :: style.lineBreak (depth + 1) ++ write style (depth + 1) item ++
      (writeItems style (depth + 1) items ++ (style.lineBreak depth ++ [']']))
  | .object [] => ['\x7b', '\x7d']
  | .object ((name, value) :: fields) =>
    '\x7b' :: style.lineBreak (depth + 1) ++ (writeString name ++ (style.colon ++
      write style (depth + 1) value)) ++
      (writeFields style (depth + 1) fields ++ (style.lineBreak depth ++ ['\x7d']))

/-- The items after the first. -/
def writeItems (style : Style) (depth : Nat) : List Json → List Char
  | [] => []
  | item :: items =>
    ',' :: style.lineBreak depth ++ write style depth item ++ writeItems style depth items

/-- The fields after the first. -/
def writeFields (style : Style) (depth : Nat) : List (Option String × Json) → List Char
  | [] => []
  | (name, value) :: fields =>
    ',' :: style.lineBreak depth ++ (writeString name ++ (style.colon ++
      write style depth value)) ++ writeFields style depth fields

end

/-- The tree on one line. -/
def compact (json : Json) : String := String.ofList (write .compact 0 json)

/-- The tree spread over lines. -/
def pretty (json : Json) : String := String.ofList (write .pretty 0 json)

end Graft.Json
