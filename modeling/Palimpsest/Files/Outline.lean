import Palimpsest.Files.Tree

/-
  This file defines how a file tree is built from paths with
  contents, and how it is listed again.

  The directories that lead to a path are made when they are
  missing.

  Key definitions include:
    * `Palimpsest.FileTree.plant`
    * `Palimpsest.FileTree.uproot`
    * `Palimpsest.FileTree.directories`
    * `Palimpsest.FileTree.files`
-/

namespace Palimpsest

namespace FileTree

------------------------------------------------------------
-- Planting
------------------------------------------------------------

/- Put a node at a path, and directories on the way to it. -/
def plant
    (path : FilePath)
    (n : Node)
    (t : FileTree) : FileTree :=
  match n with
  | .directory => (t.ensureDir path).2
  | .file content =>
      match path.parent? with
      | none => (t.store path content).2
      | some parent =>
          ((t.ensureDir parent).2.store path content).2

/- Take away the file at a path. -/
def uproot
    (path : FilePath)
    (t : FileTree) : FileTree :=
  match t.locate path with
  | .error _ => t
  | .ok place =>
      match t.at? place with
      | some (.file _) => t.remove place
      | _ => t

------------------------------------------------------------
-- Listing
------------------------------------------------------------

/- The path of a place. -/
def pathOf (place : Location) : String :=
  Text.joinWith "/" place

/- The nodes below the root. -/
def inside (t : FileTree) : List (Location × Node) :=
  t.nodes.pairs.filter (fun entry => ¬ entry.1.IsOutside)

/- The paths of all directories below the root, in order. -/
def directories (t : FileTree) : List String :=
  (t.inside.filterMap (fun entry =>
    if entry.2.IsDirectory then
      some (pathOf entry.1)
    else
      none)).mergeSort
        (fun first second => decide (¬ second < first))

/- The paths and contents of all files below the root. -/
def files (t : FileTree) : List (String × ByteArray) :=
  t.inside.filterMap (fun entry =>
    match entry.2 with
    | .directory => none
    | .file content => some (pathOf entry.1, content))

end FileTree

end Palimpsest
