/-
A machine as a pure value: a tree of files, a working directory, and the events logged so far.
-/
import Graft.FileTree

set_option autoImplicit false

namespace Graft

/-- A machine. -/
structure World where
  tree : FileTree
  /-- The working directory. -/
  cwd : FileTree.Location
  /-- Where temporary files belong. -/
  temporary : Path
  /-- The events so far, latest first. -/
  events : List Event

namespace World

/-- A machine whose only directory is the working directory. -/
def fresh (cwd : FileTree.Location) (temporary : Path) : World where
  tree := (List.range cwd.length).foldl
    (fun tree depth => tree.insert (cwd.take (depth + 1)) .directory) .empty
  cwd := cwd
  temporary := temporary
  events := []

/-- Applies a change of the tree, which happens only if it succeeds. -/
def change (f : FileTree → Except FileError FileTree) : StateM World (Except FileError Unit) :=
  fun world => match f world.tree with
    | .ok tree => (.ok (), { world with tree := tree })
    | .error error => (.error error, world)

instance : Host (StateM World) where
  readBytes path := fun world => (world.tree.readBytes world.cwd path, world)
  present path := fun world => (world.tree.present world.cwd path, world)
  isFile path := fun world => (world.tree.isFile world.cwd path, world)
  list path := fun world => (world.tree.list world.cwd path, world)
  createDirectories path := fun world =>
    let (result, tree) := world.tree.createDirectories world.cwd path
    (result, { world with tree := tree })
  createFile path content := fun world =>
    change (fun tree => tree.createFile world.cwd path content) world
  replaceFile path content := fun world =>
    change (fun tree => tree.replaceFile world.cwd path content) world
  writeFile path content := fun world =>
    change (fun tree => tree.writeFile world.cwd path content) world
  removeFile path := fun world => change (fun tree => tree.removeFile world.cwd path) world
  temporaryDirectory := fun world => (world.temporary, world)
  currentDirectory := fun world => (.ok world.cwd.path, world)
  log event := fun world => ((), { world with events := event :: world.events })

end World

end Graft
