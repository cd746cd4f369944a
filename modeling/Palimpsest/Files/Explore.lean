import Palimpsest.Files.Tree

/-
  This file defines the search for all files below a directory
  that have an extension.

  Directories are listed one after another.  The directories
  found in a listing wait for their turn, the latest found
  first; the files found on the way are put in the order of
  their paths when nothing waits any more.

  Key definitions include:
    * `Palimpsest.FileTree.entries`
    * `Palimpsest.FileTree.list`
    * `Palimpsest.Search`
    * `Palimpsest.Search.take`
    * `Palimpsest.Search.run`
    * `Palimpsest.FileTree.filesWithExtension`
-/

namespace Palimpsest

namespace FileTree

------------------------------------------------------------
-- Listings
------------------------------------------------------------

/- A name in a directory, and what it stands for. -/
structure Entry where
  name : String
  node : Node

/-
  The entry for a node, if it is right below a place.  What is
  above a directory is not in it.
-/
def entryIn?
    (place : Location)
    (node : Location × Node) : Option Entry :=
  match node.1.getLast? with
  | none => none
  | some name =>
      if node.1.dropLast = place ∧
          ¬ Location.IsUpward node.1 then
        some ⟨name, node.2⟩
      else
        none

/- The entries of a directory. -/
def entries
    (t : FileTree)
    (place : Location) : List Entry :=
  t.nodes.pairs.filterMap (entryIn? place)

/- The entries of the directory that a path leads to. -/
def list
    (t : FileTree)
    (path : FilePath) : Except FileFault (List Entry) :=
  match t.locate path with
  | .error fault => .error fault
  | .ok place =>
      match t.at? place with
      | none => .error .notFound
      | some (.file _) => .error .notDirectory
      | some .directory => .ok (t.entries place)

end FileTree

------------------------------------------------------------
-- Searching
------------------------------------------------------------

/- A directory that could not be listed, and why. -/
structure Unlisted where
  path : FilePath
  cause : FileFault

/-
  A search: the directories that wait to be listed, the next
  one first, and the files found so far.
-/
structure Search where
  pending : List FilePath
  found : List FilePath

namespace Search

/- The search that starts at a directory. -/
def start (directory : FilePath) : Search :=
  ⟨[directory], []⟩

/- Take in an entry of the directory that is listed. -/
def take
    (extension : String)
    (directory : FilePath)
    (s : Search)
    (entry : FileTree.Entry) : Search :=
  let path := directory.join ⟨entry.name⟩
  if entry.node.IsDirectory then
    { s with pending := path :: s.pending }
  else if path.extension? = some extension then
    { s with found := s.found ++ [path] }
  else
    s

/-
  List at most so many waiting directories, one after another.
  The first that cannot be listed ends the search.
-/
def run
    (t : FileTree)
    (extension : String) : Nat → Search → Except Unlisted Search
| 0, s => .ok s
| n + 1, s =>
    match s.pending with
    | [] => .ok s
    | directory :: rest =>
        match t.list directory with
        | .error cause => .error ⟨directory, cause⟩
        | .ok entries =>
            run t extension n
              (entries.foldl (take extension directory)
                { s with pending := rest })

end Search

/-
  The paths of all files below a directory that have an
  extension, in order.  There are at most as many directories
  to list as nodes, and the directory itself.
-/
def FileTree.filesWithExtension
    (t : FileTree)
    (directory : FilePath)
    (extension : String) : Except Unlisted (List FilePath) :=
  match
    Search.run t extension (t.nodes.size + 1)
      (Search.start directory)
  with
  | .error fault => .error fault
  | .ok s =>
      .ok (s.found.mergeSort
        (fun first second => decide (first.Precedes second)))

end Palimpsest
