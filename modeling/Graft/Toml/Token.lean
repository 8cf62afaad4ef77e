/-
TOML text cut into tokens.

Settings are texts, so of TOML's values only texts are read here, in their four spellings; a text
with a number, a date or any other mark has no tokens. White space and comments are no tokens,
line ends are. A carriage return may stand before a line feed only, where it belongs to the line
end; inside a text of several lines both are kept.

Every reader of a part says how many characters the part takes, and the characters that were read
already are skipped, so that all of them recurse on the text itself.
-/
import Graft.Text.Hex

set_option autoImplicit false

namespace Graft.Toml

/-- The words and marks of settings. -/
inductive Token
  /-- A name without quotes. -/
  | word (name : String)
  /-- A text, and whether its quotes were tripled so that it may span lines. -/
  | text (content : String) (tripled : Bool)
  | equals
  | dot
  | comma
  | openBracket
  | closeBracket
  | openBrace
  | closeBrace
  | lineEnd
  deriving DecidableEq, Inhabited

/-! ## 1. Characters -/

/-- Whether every carriage return stands before a line feed. -/
def returnsPaired : List Char → Bool
  | [] => true
  | c :: rest => (c ≠ '\r' || rest.head? = some '\n') && returnsPaired rest

/-- Whether a character may stand in a comment or, as itself, in a text: anything but control
characters, of which only the tab is allowed. -/
def isPlain (c : Char) : Bool := c = '\t' || (0x20 ≤ c.toNat && c.toNat ≠ 0x7F)

/-- Whether a character can stand in a name without quotes. -/
def isBare (c : Char) : Bool := c.isAlphanum || c = '_' || c = '-'

/-- Whether a character is white space inside a line. -/
def isSpace (c : Char) : Bool := c = ' ' || c = '\t'

/-- Whether a character belongs to a line end. -/
def isBreak (c : Char) : Bool := c = '\n' || c = '\r'

/-! ## 2. Texts -/

/-- How a text is quoted. -/
structure Style where
  quote : Char
  /-- Whether the quotes are tripled and the text may span lines. -/
  tripled : Bool
  deriving DecidableEq

/-- Whether a backslash means something: in double quotes it does. -/
def Style.escapes (style : Style) : Bool := style.quote = '"'

/-- The character of a code point in hexadecimal digits; surrogates are no characters. -/
def scalar? (digits : List Char) : Option Char := do
  let n ← Hex.natOf? digits
  if n.isValidChar then some (Char.ofNat n) else none

/-- The character spelled by exactly so many digits after the mark of an escape. -/
def spelled? (count : Nat) (digits : List Char) : Option (List Char × Nat) :=
  if count ≤ digits.length then
    (scalar? (digits.take count)).map (fun c => ([c], count + 1))
  else none

/-- What stands for the characters after a backslash, and how many of them that takes. In a text of
several lines a backslash at the end of a line takes away all white space up to the next other
character. -/
def escape? (style : Style) : List Char → Option (List Char × Nat)
  | [] => none
  | mark :: digits =>
    match mark with
    | '"' => some (['"'], 1)
    | '\\' => some (['\\'], 1)
    | 'b' => some (['\x08'], 1)
    | 'e' => some (['\x1b'], 1)
    | 'f' => some (['\x0c'], 1)
    | 'n' => some (['\n'], 1)
    | 'r' => some (['\r'], 1)
    | 't' => some (['\t'], 1)
    | 'x' => spelled? 2 digits
    | 'u' => spelled? 4 digits
    | 'U' => spelled? 8 digits
    | _ =>
      let gap := (mark :: digits).takeWhile (fun c => isSpace c || isBreak c)
      if style.tripled ∧ '\n' ∈ gap then some ([], gap.length) else none

/-- What the quotes at the end of a text add to it, and how many characters they are. Up to two
quotes before the three that end a text of several lines belong to the text. -/
def closing? (style : Style) (cs : List Char) : Option (List Char × Nat) :=
  let quotes := (cs.takeWhile (· = style.quote)).length
  if style.tripled then
    if quotes < 3 then none
    else some (List.replicate (min 2 (quotes - 3)) style.quote, min 5 quotes)
  else if 1 ≤ quotes then some ([], 1)
  else none

/-- Puts characters in front of a text that was read, and counts one more. -/
def prepend (front : List Char) (read : List Char × Nat) : List Char × Nat :=
  (front ++ read.1, read.2 + 1)

/-- The text after its opening quotes, and the number of characters up to the end of its closing
ones. The first `skip` characters were read already. -/
def body? (style : Style) (skip : Nat) : List Char → Option (List Char × Nat)
  | [] => none
  | c :: rest =>
    if 0 < skip then (body? style (skip - 1) rest).map (prepend [])
    else match closing? style (c :: rest) with
      | some ending => some ending
      | none =>
        if c = '\\' ∧ style.escapes then do
          let (meant, used) ← escape? style rest
          (body? style used rest).map (prepend meant)
        else if isPlain c ∨ (style.tripled ∧ isBreak c) then
          (body? style 0 rest).map (prepend [c])
        else none

/-- The text that starts after a first quote, and the number of characters that it takes. A line
end directly after three quotes does not count. -/
def quoted? (quote : Char) (rest : List Char) : Option (Token × Nat) :=
  let tripled := rest.take 2 = [quote, quote]
  let opening :=
    if !tripled then 0
    else match rest.drop 2 with
      | '\n' :: _ => 3
      | '\r' :: _ => 4
      | _ => 2
  (body? ⟨quote, tripled⟩ opening rest).map (fun (content, used) =>
    (.text (String.ofList content) tripled, used))

/-! ## 3. Tokens -/

/-- The token that is a single mark. -/
def mark? : Char → Option Token
  | '=' => some .equals
  | '.' => some .dot
  | ',' => some .comma
  | '[' => some .openBracket
  | ']' => some .closeBracket
  | '\x7b' => some .openBrace
  | '\x7d' => some .closeBrace
  | '\n' => some .lineEnd
  | _ => none

/-- The tokens of a text whose first `skip` characters were read already. -/
def tokensFrom? (skip : Nat) : List Char → Option (List Token)
  | [] => some []
  | c :: rest =>
    if 0 < skip then tokensFrom? (skip - 1) rest
    else if isSpace c ∨ c = '\r' then tokensFrom? 0 rest
    else if c = '#' then
      let comment := rest.takeWhile (fun c => !isBreak c)
      if comment.all isPlain then tokensFrom? comment.length rest else none
    else if isBare c then
      let more := rest.takeWhile isBare
      (tokensFrom? more.length rest).map (.word (String.ofList (c :: more)) :: ·)
    else if c = '"' ∨ c = '\x27' then do
      let (token, used) ← quoted? c rest
      (tokensFrom? used rest).map (token :: ·)
    else do
      let token ← mark? c
      (tokensFrom? 0 rest).map (token :: ·)

/-- The tokens of a text. A byte order mark in front does not count. -/
def tokens? (cs : List Char) : Option (List Token) :=
  if returnsPaired cs then tokensFrom? (if cs.head? = some '\uFEFF' then 1 else 0) cs else none

end Graft.Toml
