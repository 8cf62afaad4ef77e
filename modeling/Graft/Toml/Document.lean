/-
TOML documents, as far as settings need them.

A document is a sequence of lines: a header names the table that the following lines belong to, and
an assignment gives a value to a name. A value is a text, an empty table or array, or a table whose
only field is empty; nothing deeper is a setting. Line ends inside brackets and braces do not end a
line.
-/
import Graft.Toml.Token

set_option autoImplicit false

namespace Graft.Toml

/-- Names from a table to what it holds. -/
abbrev Key := List String

/-- What is assigned. -/
inductive Assigned
  | text (content : String)
  /-- An empty table or array. -/
  | empty
  /-- A table whose only field is an empty table or array. -/
  | choice (name : String)
  deriving DecidableEq

/-- An assignment, with the header that it stands under; the root has the empty header. -/
structure Assignment where
  header : Key
  key : Key
  value : Assigned
  deriving DecidableEq

/-- The headers and the assignments of a text, each in order. -/
structure Document where
  headers : List Key
  assignments : List Assignment
  deriving DecidableEq

/-! ## 1. Lines -/

/-- How much deeper a token leads into brackets and braces: `depth` is the depth before it. -/
def Token.depthAfter (depth : Nat) : Token → Nat
  | .openBracket => depth + 1
  | .openBrace => depth + 1
  | .closeBracket => depth - 1
  | .closeBrace => depth - 1
  | _ => depth

/-- Cuts tokens at the line ends outside of brackets and braces. -/
def lines (depth : Nat) : List Token → List (List Token)
  | [] => [[]]
  | token :: rest =>
    if token = .lineEnd ∧ depth = 0 then [] :: lines 0 rest
    else match lines (token.depthAfter depth) rest with
      | [] => [[token]]
      | line :: more => (token :: line) :: more

/-- What follows after line ends. -/
def skipLineEnds (tokens : List Token) : List Token := tokens.dropWhile (· = .lineEnd)

/-! ## 2. Keys and values -/

/-- The name that a token spells, without quotes or in single ones. -/
def Token.name? : Token → Option String
  | .word name => some name
  | .text content false => some content
  | _ => none

/-- A key: names with dots between them. -/
def key? : List Token → Option Key
  | [] => none
  | [token] => token.name?.map ([·])
  | token :: .dot :: rest => do return (← token.name?) :: (← key? rest)
  | _ => none

/-- What follows after an empty table or array. -/
def afterEmpty? : List Token → Option (List Token)
  | .openBrace :: rest =>
    match skipLineEnds rest with
    | .closeBrace :: rest => some rest
    | _ => none
  | .openBracket :: rest =>
    match skipLineEnds rest with
    | .closeBracket :: rest => some rest
    | _ => none
  | _ => none

/-- The name of the only field of a table; a comma may follow it, and line ends may stand between
any two of its parts. -/
def choice? : List Token → Option String
  | .openBrace :: rest =>
    match skipLineEnds rest with
    | [] => none
    | token :: rest =>
      match skipLineEnds rest with
      | .equals :: rest => do
        let name ← token.name?
        match skipLineEnds (← afterEmpty? (skipLineEnds rest)) with
        | .comma :: rest => if skipLineEnds rest = [.closeBrace] then some name else none
        | rest => if rest = [.closeBrace] then some name else none
      | _ => none
  | _ => none

/-- What the tokens after an equals sign stand for. -/
def assigned? : List Token → Option Assigned
  | [.text content _] => some (.text content)
  | tokens =>
    if afterEmpty? tokens = some [] then some .empty else (choice? tokens).map .choice

/-! ## 3. Documents -/

/-- The document without lines. -/
def Document.empty : Document := ⟨[], []⟩

/-- Adds a line at the end. -/
def Document.addLine (document : Document) (line : List Token) : Option Document :=
  match line with
  | [] => some document
  | .openBracket :: rest =>
    if rest.getLast? = some .closeBracket then
      (key? rest.dropLast).map (fun header =>
        { document with headers := document.headers ++ [header] })
    else none
  | _ => do
    let key ← key? (line.takeWhile (· ≠ .equals))
    let value ← assigned? ((line.dropWhile (· ≠ .equals)).drop 1)
    let header := document.headers.getLast?.getD []
    return { document with assignments := document.assignments ++ [⟨header, key, value⟩] }

/-- The document that a text spells. -/
def Document.ofText? (text : String) : Option Document := do
  (lines 0 (← tokens? text.toList)).foldlM Document.addLine .empty

end Graft.Toml
