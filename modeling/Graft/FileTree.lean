/-
A tree of files as a pure value.

Locations are lists of names from the root; the tree maps each location that is taken to a
directory or to a file with its content. Paths are resolved against a working directory one segment
at a time, and every segment needs an existing directory to stand on, also `.` and `..`. A path may
thus fail because something is missing on the way, because a file is in the way, because a name is
longer than 255 bytes or the whole path longer than 4095, or because it holds a NUL character.

There are directories and regular files, and no links: a path leads to one location, and what is
done at one location is seen at no other.

Content that has to appear at once is staged: it is written to a temporary file in the directory
that it is for, and the finished file takes its place. The temporary file is reached by an absolute
path, so a short relative path is no warrant that it can be made.
-/
import Graft.Collections.OrderedMap
import Graft.Host

set_option autoImplicit false

namespace Graft

/-- What a location holds. Symbolic links are left out, and so are hard links: no entry stands for
another one, and no two locations share a file. -/
inductive FileTree.Entry
  | directory
  | file (content : ByteArray)

/-- Names from the root down. -/
abbrev FileTree.Location := List String

/-- The locations that are taken. The root is always a directory and is not listed. -/
structure FileTree where
  entries : OrderedMap FileTree.Location FileTree.Entry

namespace FileTree

/-- The tree with nothing but its root. -/
def empty : FileTree := ⟨.empty⟩

/-- What is at a location. -/
def get? (tree : FileTree) (location : Location) : Option Entry :=
  if location = [] then some .directory else tree.entries.get? location

/-- Puts something at a location. -/
def insert (tree : FileTree) (location : Location) (entry : Entry) : FileTree :=
  ⟨tree.entries.insert location entry⟩

/-- Takes away what is at a location. -/
def erase (tree : FileTree) (location : Location) : FileTree := ⟨tree.entries.erase location⟩

/-! ## 1. Resolving paths -/

/-- The absolute path of a location. -/
def Location.path (location : Location) : Path := ⟨"/" ++ String.intercalate "/" location⟩

/-- The longest name of an entry, in bytes. -/
def longestName : Nat := 255

/-- The longest path, in bytes. -/
def longestPath : Nat := 4095

/-- Follows segments from a location. The last one may lead to a free place. -/
def walk (tree : FileTree) : Location → List String → Except FileError Location
  | location, [] => .ok location
  | location, segment :: rest =>
    match tree.get? location with
    | none => .error .notFound
    | some (.file _) => .error .notDirectory
    | some .directory =>
      if segment = "" ∨ segment = "." then walk tree location rest
      else if segment = ".." then walk tree location.dropLast rest
      else if longestName < segment.utf8ByteSize then .error .nameTooLong
      else walk tree (location ++ [segment]) rest

/-- The location that segments of a path denote, seen from a working directory. -/
def locateSegments (tree : FileTree) (cwd : Location) (path : Path) (segments : List String) :
    Except FileError Location :=
  if path.text.toList.any (fun c => c.toNat = 0) then .error .invalidPath
  else if path.text = "" then .error .notFound
  else if longestPath < path.text.utf8ByteSize then .error .nameTooLong
  else tree.walk (if path.isAbsolute then [] else cwd) segments

/-- The location that a path denotes. A slash at the end asks for an existing directory. -/
def locate (tree : FileTree) (cwd : Location) (path : Path) : Except FileError Location :=
  tree.locateSegments cwd path path.segments

/-- What is at a path. -/
def lookup (tree : FileTree) (cwd : Location) (path : Path) : Except FileError Entry := do
  match tree.get? (← tree.locate cwd path) with
  | some entry => return entry
  | none => throw .notFound

/-! ## 2. Reading -/

/-- The content of a file. -/
def readBytes (tree : FileTree) (cwd : Location) (path : Path) : Except FileError ByteArray := do
  match ← tree.lookup cwd path with
  | .file content => return content
  | .directory => throw .isDirectory

/-- Whether anything is at a path. -/
def present (tree : FileTree) (cwd : Location) (path : Path) : Bool :=
  (tree.lookup cwd path).toOption.isSome

/-- Whether a regular file is at a path. -/
def isFile (tree : FileTree) (cwd : Location) (path : Path) : Bool :=
  match tree.lookup cwd path with
  | .ok (.file _) => true
  | _ => false

/-- Whether a directory is at a path. -/
def isDirectory (tree : FileTree) (cwd : Location) (path : Path) : Bool :=
  match tree.lookup cwd path with
  | .ok .directory => true
  | _ => false

/-- The name that a location has inside a directory, when it stands directly in it. -/
def childName? (directory location : Location) : Option String :=
  if location.dropLast = directory then location.getLast? else none

/-- The names in a directory. -/
def list (tree : FileTree) (cwd : Location) (path : Path) : Except FileError (List String) := do
  let location ← tree.locate cwd path
  match tree.get? location with
  | some .directory => return tree.entries.keys.filterMap (childName? location)
  | some (.file _) => throw .notDirectory
  | none => throw .notFound

/-- Everything below a location, with the names that lead there from it. -/
def below (tree : FileTree) (location : Location) : List (Location × Entry) :=
  tree.entries.entries.filterMap (fun (place, entry) =>
    if location.isPrefixOf place && place ≠ location then
      some (place.drop location.length, entry)
    else none)

/-- The paths of everything below a directory, seen from it and in order; those of directories end
in a slash. -/
def listing (tree : FileTree) (cwd : Location) (path : Path) : List String :=
  match tree.locate cwd path with
  | .error _ => []
  | .ok location =>
    ((tree.below location).map (fun (names, entry) =>
      String.intercalate "/" names ++ (match entry with
        | .directory => "/"
        | .file _ => ""))).mergeSort (fun a b => decide (a ≤ b))

/-! ## 3. Changing -/

/-- Makes or overwrites a file. -/
def writeFile (tree : FileTree) (cwd : Location) (path : Path) (content : ByteArray) :
    Except FileError FileTree := do
  let location ← tree.locate cwd path
  match tree.get? location with
  | some .directory => throw .isDirectory
  | _ => return tree.insert location (.file content)

/-- The name of a temporary file. It holds its name only for as long as an operation takes. -/
def temporaryName : String := ".tmp000000"

/-- Where the content for a path is staged: beside it, by an absolute path. -/
def stage (tree : FileTree) (cwd : Location) (path : Path) : Except FileError Location :=
  tree.locate cwd ((cwd.path.join path.directory).entry temporaryName)

/-- Makes or replaces a file by staged content. -/
def replaceFile (tree : FileTree) (cwd : Location) (path : Path) (content : ByteArray) :
    Except FileError FileTree := do
  let _ ← tree.stage cwd path
  tree.writeFile cwd path content

/-- Makes a file by staged content where nothing is. -/
def createFile (tree : FileTree) (cwd : Location) (path : Path) (content : ByteArray) :
    Except FileError FileTree := do
  let _ ← tree.stage cwd path
  let location ← tree.locate cwd path
  match tree.get? location with
  | some _ => throw .alreadyExists
  | none => return tree.insert location (.file content)

/-- Deletes a file. -/
def removeFile (tree : FileTree) (cwd : Location) (path : Path) : Except FileError FileTree := do
  let location ← tree.locate cwd path
  match tree.get? location with
  | some (.file _) => return tree.erase location
  | some .directory => throw .isDirectory
  | none => throw .notFound

/-- Deletes what is at a path and everything below it. -/
def removeTree (tree : FileTree) (cwd : Location) (path : Path) : Except FileError FileTree := do
  let location ← tree.locate cwd path
  match tree.get? location with
  | some _ => return ⟨tree.entries.filterKeys (fun place => !location.isPrefixOf place)⟩
  | none => throw .notFound

/-- Makes one directory. Slashes at the end of the path do not count. -/
def makeDirectory (tree : FileTree) (cwd : Location) (path : Path) : Except FileError FileTree := do
  let segments := (path.segments.reverse.dropWhile (· = "")).reverse
  let location ← tree.locateSegments cwd path segments
  match tree.get? location with
  | some _ => throw .alreadyExists
  | none => return tree.insert location .directory

/-- Makes the first of the given directories, and before it, when its place is missing, the
others. The directories that were made before a failure stay. -/
def createAlong (tree : FileTree) (cwd : Location) : List Path → Except FileError Unit × FileTree
  | [] => (.error (.other "failed to create whole tree"), tree)
  | path :: above =>
    if path.text = "" then (.ok (), tree)
    else match tree.makeDirectory cwd path with
      | .ok tree => (.ok (), tree)
      | .error .notFound =>
        match createAlong tree cwd above with
        | (.error error, tree) => (.error error, tree)
        | (.ok (), tree) =>
          match tree.makeDirectory cwd path with
          | .ok tree => (.ok (), tree)
          | .error error => (if tree.isDirectory cwd path then .ok () else .error error, tree)
      | .error error => (if tree.isDirectory cwd path then .ok () else .error error, tree)

/-- Makes a directory and the missing ones above it. -/
def createDirectories (tree : FileTree) (cwd : Location) (path : Path) :
    Except FileError Unit × FileTree :=
  tree.createAlong cwd path.ancestors

end FileTree

end Graft
