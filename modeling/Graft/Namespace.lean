/-
Namespaces: where the artifacts of an analysis belong.

A namespace is a non-empty sequence of identifiers. It is written with `::` or a backslash between
them; white space around the text, and then any colons and backslashes around what is left, do not
count. Identifiers are ASCII: a letter or an underscore, then letters, digits and underscores.
-/
import Graft.Path
import Graft.Text.Blank
import Graft.Text.Quoted

set_option autoImplicit false

namespace Graft

namespace Namespace

/-- Whether a character can start an identifier. -/
def isStart (c : Char) : Bool := c.isAlpha || c = '_'

/-- Whether a character can continue an identifier. -/
def isContinuation (c : Char) : Bool := c.isAlphanum || c = '_'

/-- Whether a text is an identifier. -/
def isIdentifier (cs : List Char) : Bool :=
  match cs with
  | [] => false
  | c :: rest => isStart c && rest.all isContinuation

end Namespace

/-- A non-empty sequence of identifiers. -/
structure Namespace where
  segments : List String
  nonempty : segments ≠ []
  identifiers : ∀ segment ∈ segments, Namespace.isIdentifier segment.toList = true

/-- Why a text is no namespace. -/
inductive Namespace.Flaw
  | empty
  | emptySegment
  | notIdentifier
  deriving DecidableEq

/-- The reason in words. -/
def Namespace.Flaw.reason : Namespace.Flaw → String
  | .empty => "namespace is empty"
  | .emptySegment => "empty segment"
  | .notIdentifier => "segments must be identifiers"

/-- A text that is no namespace. -/
structure NamespaceError where
  raw : String
  flaw : Namespace.Flaw
  deriving DecidableEq

/-- The error in words. -/
def NamespaceError.message (error : NamespaceError) : String :=
  "invalid namespace " ++ Text.quoted error.raw ++ ": " ++ error.flaw.reason

namespace Namespace

/-- Whether a character separates segments. -/
def isSeparator (c : Char) : Bool := c = '\\' || c = ':'

/-- The text without white space, and then without separators, at its ends. -/
def trimmed (cs : List Char) : List Char := Text.trim isSeparator (Text.trim Text.isBlank cs)

/-- The text with every backslash written as a pair of colons. -/
def normalized (cs : List Char) : List Char :=
  cs.flatMap (fun c => if c = '\\' then [':', ':'] else [c])

/-- The segments of a text, not yet checked. -/
def segmentsOf (cs : List Char) : List (List Char) :=
  Text.splitAtPair ':' ':' (normalized cs)

/-- Reads a namespace. The first segment that is no identifier decides the reason. -/
def parse (raw : String) : Except NamespaceError Namespace :=
  let cs := trimmed raw.toList
  if cs.isEmpty then .error ⟨raw, .empty⟩
  else
    let segments := segmentsOf cs
    if h : segments ≠ [] ∧ ∀ segment ∈ segments, isIdentifier segment = true then
      .ok {
        segments := segments.map String.ofList
        nonempty := by simpa using h.1
        identifiers := by
          intro segment hs
          obtain ⟨part, hp, rfl⟩ := List.mem_map.1 hs
          simpa using h.2 part hp }
    else
      match segments.find? (fun segment => !isIdentifier segment) with
      | some [] => .error ⟨raw, .emptySegment⟩
      | _ => .error ⟨raw, .notIdentifier⟩

/-- The namespace as it is written. -/
def text (space : Namespace) : String := String.intercalate "::" space.segments

/-- The relative directory of the namespace, one component for each segment. -/
def path (space : Namespace) : Path := Path.ofNames space.segments

end Namespace

end Graft
