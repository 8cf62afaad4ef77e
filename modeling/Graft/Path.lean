/-
Paths, as text.

A path is kept exactly as it was written; nothing is normalized. Joining puts a slash between two
parts unless the first is empty or ends in one, and an absolute second part replaces the first. What
a path's parent, file name and extension are follows from its components, for which repeated
slashes and inner dots do not count.
-/
import Graft.Text.Split

set_option autoImplicit false

namespace Graft

/-- A path of the file system. -/
structure Path where
  text : String
  deriving DecidableEq, Inhabited

namespace Path

/-- The parts between slashes. -/
def segments (path : Path) : List String :=
  (Text.splitAt '/' path.text.toList).map String.ofList

/-- Whether the path starts at the root. -/
def isAbsolute (path : Path) : Bool := path.text.toList.head? = some '/'

/-- The second path seen from the first. -/
def join (base path : Path) : Path :=
  if path.isAbsolute then path
  else if base.text.isEmpty || base.text.toList.getLast? = some '/' then
    ⟨base.text ++ path.text⟩
  else ⟨base.text ++ "/" ++ path.text⟩

/-- An entry of the directory at a path. -/
def entry (directory : Path) (name : String) : Path := directory.join ⟨name⟩

/-- The path whose components are the given names. -/
def ofNames (names : List String) : Path := names.foldl entry ⟨""⟩

/-! ## 1. Components -/

/-- Whether a segment after the first names nothing. -/
def isFiller (segment : String) : Bool := segment = "" || segment = "."

/-- Segments from the last to the first, without the fillers at the end. A leading dot stays: it is
a component when it starts the path. -/
def dropFillers : List String → List String
  | [] => []
  | [first] => [first]
  | segment :: rest => if isFiller segment then dropFillers rest else segment :: rest

/-- The segments from the last to the first, ending with the last component. -/
def reversed (path : Path) : List String := dropFillers path.segments.reverse

/-- The path without its last component; none for the root and for the empty path. -/
def parent? (path : Path) : Option Path :=
  match path.reversed with
  | [] => none
  | [first] => if first = "" then none else some ⟨""⟩
  | _ :: rest =>
    match dropFillers rest with
    | [""] => some ⟨"/"⟩
    | kept => some ⟨String.intercalate "/" kept.reverse⟩

/-- The directory to put a file at this path into. -/
def directory (path : Path) : Path := path.parent?.getD ⟨"."⟩

/-- The last component, when it is a name. -/
def fileName? (path : Path) : Option String :=
  match path.reversed with
  | [] => none
  | name :: _ => if name = "" || name = "." || name = ".." then none else some name

/-- What follows the last dot of a file name; none when nothing stands before that dot. -/
def extensionOf? (name : String) : Option String :=
  let reversed := name.toList.reverse
  let tail := reversed.takeWhile (· ≠ '.')
  match reversed.dropWhile (· ≠ '.') with
  | _ :: _ :: _ => some (String.ofList tail.reverse)
  | _ => none

/-- The extension of the file name. -/
def extension? (path : Path) : Option String := path.fileName?.bind extensionOf?

/-- The path itself and what is left after taking components away one by one, longest first. -/
def ancestors (path : Path) : List Path := go path.segments.length path
where
  go : Nat → Path → List Path
    | 0, path => [path]
    | n + 1, path => match path.parent? with
      | some parent => path :: go n parent
      | none => [path]

end Path

end Graft
