/-
JSON text cut into tokens.

The reader goes through the characters once, in one of a few modes: between tokens, in a word (a
literal or a number, which ends where a character cannot continue it), in a string, after a
backslash, or in a four-digit escape. Each step gives the tokens that it completes.

Characters come as `Option Char`, where `none` stands for a byte that belongs to no character: it
may stand in a string, which then spells no text, and nowhere else.
-/
import Graft.Json.Basic
import Graft.Text.Hex

set_option autoImplicit false

namespace Graft.Json

/-- The words and marks of JSON text. -/
inductive Token
  | openArray
  | closeArray
  | openObject
  | closeObject
  | comma
  | colon
  /-- A string with the text that it spells. -/
  | string (spelled : Option String)
  /-- A value that is one word: `null`, `true`, `false` or a number. -/
  | atom (value : Json)
  deriving Inhabited

/-! ## 1. Strings -/

/-- The part of a string that was read: its characters, latest first; the first half of a
surrogate pair that waits for the second; and whether everything so far spells text. -/
structure Spelling where
  read : List Char
  high : Option Nat
  sound : Bool

/-- The spelling at the opening quote. -/
def Spelling.start : Spelling := ⟨[], none, true⟩

/-- Adds a character as it stands, or a byte that is none. Either leaves a waiting first half of a
pair without its second. -/
def Spelling.push (s : Spelling) (c : Option Char) : Spelling :=
  match c, s.high with
  | some c, none => { s with read := c :: s.read }
  | _, _ => { s with high := none, sound := false }

/-- Adds the number of a four-digit escape: a character, or half of a surrogate pair. -/
def Spelling.pushUnit (s : Spelling) (unit : Nat) : Spelling :=
  if 0xD800 ≤ unit ∧ unit ≤ 0xDBFF then
    { s with high := some unit, sound := s.sound && s.high.isNone }
  else if 0xDC00 ≤ unit ∧ unit ≤ 0xDFFF then
    match s.high with
    | some high =>
      { s with read := Char.ofNat (0x10000 + (high - 0xD800) * 0x400 + (unit - 0xDC00)) :: s.read,
               high := none }
    | none => { s with sound := false }
  else s.push (some (Char.ofNat unit))

/-- What the string spells at its closing quote. -/
def Spelling.finish (s : Spelling) : Option String :=
  if s.sound && s.high.isNone then some (String.ofList s.read.reverse) else none

/-- The character that a one-letter escape stands for. -/
def shortEscape? : Char → Option Char
  | '"' => some '"'
  | '\\' => some '\\'
  | '/' => some '/'
  | 'b' => some '\x08'
  | 'f' => some '\x0c'
  | 'n' => some '\n'
  | 'r' => some '\r'
  | 't' => some '\t'
  | _ => none

/-! ## 2. Words -/

/-- Whether a character can stand in a word. -/
def isWordChar (c : Char) : Bool := c.isAlphanum || c = '-' || c = '+' || c = '.'

/-- The value of a word. -/
def atom? (word : List Char) : Option Json :=
  if word = ['n', 'u', 'l', 'l'] then some .null
  else if word = ['t', 'r', 'u', 'e'] then some (.bool true)
  else if word = ['f', 'a', 'l', 's', 'e'] then some (.bool false)
  else if isNumber word then some (.number (String.ofList word))
  else none

/-! ## 3. The reader -/

/-- Where the reader stands. Words and escapes keep what they have read, latest first. -/
inductive Mode
  | between
  | word (read : List Char)
  | string (spelling : Spelling)
  | escape (spelling : Spelling)
  | unit (spelling : Spelling) (digits : List Char)

/-- The mode and the tokens completed so far, latest first. -/
structure Lexer where
  mode : Mode
  tokens : List Token

/-- A character between tokens. -/
def Lexer.begin (tokens : List Token) (c : Char) : Option Lexer :=
  match c with
  | ' ' => some ⟨.between, tokens⟩
  | '\n' => some ⟨.between, tokens⟩
  | '\t' => some ⟨.between, tokens⟩
  | '\r' => some ⟨.between, tokens⟩
  | '[' => some ⟨.between, .openArray :: tokens⟩
  | ']' => some ⟨.between, .closeArray :: tokens⟩
  | '\x7b' => some ⟨.between, .openObject :: tokens⟩
  | '\x7d' => some ⟨.between, .closeObject :: tokens⟩
  | ',' => some ⟨.between, .comma :: tokens⟩
  | ':' => some ⟨.between, .colon :: tokens⟩
  | '"' => some ⟨.string .start, tokens⟩
  | c => if isWordChar c then some ⟨.word [c], tokens⟩ else none

/-- One character. -/
def Lexer.step (lexer : Lexer) (c : Option Char) : Option Lexer :=
  match lexer.mode, c with
  | .between, some c => begin lexer.tokens c
  | .word read, some c =>
    if isWordChar c then some ⟨.word (c :: read), lexer.tokens⟩
    else (atom? read.reverse).bind (fun value => begin (.atom value :: lexer.tokens) c)
  | .string s, none => some ⟨.string (s.push none), lexer.tokens⟩
  | .string s, some c =>
    if c = '"' then some ⟨.between, .string s.finish :: lexer.tokens⟩
    else if c = '\\' then some ⟨.escape s, lexer.tokens⟩
    else if c.toNat < 0x20 then none
    else some ⟨.string (s.push (some c)), lexer.tokens⟩
  | .escape s, some c =>
    if c = 'u' then some ⟨.unit s [], lexer.tokens⟩
    else (shortEscape? c).map (fun meant => ⟨.string (s.push (some meant)), lexer.tokens⟩)
  | .unit s digits, some c =>
    if digits.length < 3 then
      (Hex.value? c).map (fun _ => ⟨.unit s (c :: digits), lexer.tokens⟩)
    else
      (Hex.natOf? (c :: digits).reverse).map (fun n => ⟨.string (s.pushUnit n), lexer.tokens⟩)
  | _, none => none

/-- The tokens at the end of the text, in order; none when it ends inside a string. -/
def Lexer.finish (lexer : Lexer) : Option (List Token) :=
  match lexer.mode with
  | .between => some lexer.tokens.reverse
  | .word read => (atom? read.reverse).map (fun value => (Token.atom value :: lexer.tokens).reverse)
  | _ => none

/-- Cuts a text into tokens. -/
def tokens? (cs : List (Option Char)) : Option (List Token) :=
  (cs.foldlM Lexer.step ⟨.between, []⟩).bind Lexer.finish

end Graft.Json
