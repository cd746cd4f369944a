import Palimpsest.FilePath
import Palimpsest.Table

/-
  This file defines file trees: the directories and files that
  units are read from and written to.

  A place is the list of names on the way down to it from the
  root of the tree, where relative paths start.  Paths are
  looked up step by step: every step but the last must lead to
  a directory that is there, a single dot or an empty piece
  stays where it is, and two dots go one level up.  Paths may
  lead out of the tree, above its root or to where absolute
  paths start; the places there are told apart from those
  below the root by their first step.

  Trees are idealised.  All that is in them is directories and
  regular files, each at one place: there are no links, hard
  or symbolic, and no pipes, sockets or devices.  There are no
  permissions: a directory can be listed and the bytes of a
  file can be read.  A write is done or refused as a whole, as
  if a disk never became full half-way.  Absolute paths start
  apart from relative ones, so that no place has a path of
  either kind.

  Key definitions include:
    * `Palimpsest.Location`
    * `Palimpsest.Location.up`
    * `Palimpsest.Location.advance`
    * `Palimpsest.Node`
    * `Palimpsest.FileTree`
    * `Palimpsest.FileTree.at?`
    * `Palimpsest.FileFault`
    * `Palimpsest.FileTree.locate`
    * `Palimpsest.FileTree.read`
    * `Palimpsest.FileTree.readIfExists`
    * `Palimpsest.FileTree.makeDir`
    * `Palimpsest.FileTree.ensureDir`
    * `Palimpsest.FileTree.store`
    * `Palimpsest.FileTree.write`
    * `Palimpsest.FileTree.create`
-/

namespace Palimpsest

------------------------------------------------------------
-- Places
------------------------------------------------------------

/-
  A place: the steps from the root of a tree to it.  Below the
  root all steps are names.  Outside, the first steps are two
  dots for each level above the root, or a slash for the place
  where absolute paths start.
-/
abbrev Location :=
  List String

namespace Location

/- The place where absolute paths start. -/
def top : Location :=
  ["/"]

/-
  The root, a place above it, or the one where absolute paths
  start.  There is always a directory there.
-/
def IsUpward (place : Location) : Prop :=
  place = top ∨ ∀ step ∈ place, step = ".."

instance (place : Location) : Decidable place.IsUpward :=
  @instDecidableOr _ _ _ (List.decidableBAll _ place)

/- A place that is neither the root nor below it. -/
def IsOutside (place : Location) : Prop :=
  place.head? = some ".." ∨ place.head? = top.head?

instance (place : Location) : Decidable place.IsOutside := by
  unfold IsOutside
  infer_instance

/- The place where a path starts. -/
def start (path : FilePath) : Location :=
  if path.IsAbsolute then top else []

/- The place one level up.  Nothing is above the top. -/
def up (place : Location) : Location :=
  if place = top then
    place
  else if place.IsUpward then
    place ++ [".."]
  else
    place.dropLast

/- The place after one more piece of a path. -/
def advance
    (place : Location)
    (piece : String) : Location :=
  if FilePath.IsIdle piece then
    place
  else if piece = ".." then
    place.up
  else
    place ++ [piece]

end Location

------------------------------------------------------------
-- Trees
------------------------------------------------------------

/- What can be at a place. -/
inductive Node where
| directory
| file (content : ByteArray)

namespace Node

/- The node is a directory. -/
def IsDirectory : Node → Prop
| .directory => True
| .file _ => False

instance (n : Node) : Decidable n.IsDirectory := by
  cases n <;> unfold IsDirectory <;> infer_instance

/- The file that holds a text. -/
def ofText (text : String) : Node :=
  .file text.toUTF8

end Node

/- The directories and files below a root directory. -/
structure FileTree where
  nodes : Table Location Node

namespace FileTree

/- The tree with nothing below its root. -/
def empty : FileTree :=
  ⟨Table.empty⟩

/-
  What is at a place.  The root and all above it are always
  directories.
-/
def at?
    (t : FileTree)
    (place : Location) : Option Node :=
  if place.IsUpward then
    some .directory
  else
    t.nodes.find? place

/- Put a node at a place. -/
def put
    (place : Location)
    (n : Node)
    (t : FileTree) : FileTree :=
  ⟨t.nodes.insert place n⟩

/- Take away what is at a place. -/
def remove
    (place : Location)
    (t : FileTree) : FileTree :=
  ⟨t.nodes.erase place⟩

/- Two trees with the same nodes at the same places. -/
def Same (t u : FileTree) : Prop :=
  ∀ place : Location, t.at? place = u.at? place

/- What is at a place after putting a node somewhere. -/
theorem at?_put
    {place : Location}
    (hPlace : ¬ place.IsUpward)
    (n : Node)
    (t : FileTree)
    (other : Location) :
    (t.put place n).at? other =
      if other = place then some n else t.at? other := by
  unfold at? put
  by_cases hOther : other.IsUpward
  · have hNe : other ≠ place := fun h => hPlace (h ▸ hOther)
    simp only [if_pos hOther, if_neg hNe]
  · simp only [if_neg hOther]
    exact Table.find?_insert t.nodes place other n

end FileTree

------------------------------------------------------------
-- Faults
------------------------------------------------------------

/- The ways in which an operation on files can fail. -/
inductive FileFault where
| notFound
| notDirectory
| isDirectory
| alreadyExists
| nameTooLong
| invalidName
| notText
| other (message : String)
deriving DecidableEq, Repr

/- The message for a fault. -/
def FileFault.message : FileFault → String
| .notFound => "No such file or directory (os error 2)"
| .notDirectory => "Not a directory (os error 20)"
| .isDirectory => "Is a directory (os error 21)"
| .alreadyExists => "File exists (os error 17)"
| .nameTooLong => "File name too long (os error 36)"
| .invalidName =>
    "file name contained an unexpected NUL byte"
| .notText => "stream did not contain valid UTF-8"
| .other message => message

------------------------------------------------------------
-- Looking Up Paths
------------------------------------------------------------

namespace FileTree

/- The number of bytes that a name may have. -/
def maxNameSize : Nat :=
  255

/- The number of bytes that a path may have. -/
def maxPathSize : Nat :=
  4095

/- Follow pieces of a path from a place. -/
def walk
    (t : FileTree) :
    Location → List String → Except FileFault Location
| place, [] => .ok place
| place, piece :: rest =>
    match t.at? place with
    | none => .error .notFound
    | some (.file _) => .error .notDirectory
    | some .directory =>
        if maxNameSize < piece.utf8ByteSize then
          .error .nameTooLong
        else
          t.walk (place.advance piece) rest

/-
  The place that a path with the given pieces leads to.  There
  need not be anything at that place, but what leads to it is
  there.
-/
def locatePieces
    (t : FileTree)
    (path : FilePath)
    (pieces : List String) : Except FileFault Location :=
  if '\x00' ∈ path.text.toList then
    .error .invalidName
  else if path.text = "" then
    .error .notFound
  else if maxPathSize < path.text.utf8ByteSize then
    .error .nameTooLong
  else
    t.walk (Location.start path) pieces

/- The place that a path leads to. -/
def locate
    (t : FileTree)
    (path : FilePath) : Except FileFault Location :=
  t.locatePieces path path.pieces

/- The pieces of a path without the slashes at its end. -/
def trimmedPieces (path : FilePath) : List String :=
  (path.pieces.reverse.dropWhile
    (fun piece => decide (piece = ""))).reverse

/-
  A path that ends in a name and a slash.  Dots before the
  slash are not a name.
-/
def EndsInSlash (path : FilePath) : Prop :=
  match (trimmedPieces path).getLast? with
  | none => False
  | some last =>
      last ≠ "." ∧ last ≠ ".." ∧
        path.text.toList.getLast? = some FilePath.separator

instance (path : FilePath) : Decidable (EndsInSlash path) := by
  unfold EndsInSlash
  split <;> infer_instance

/- The place that a path leads to, slashes at its end aside. -/
def locateTrimmed
    (t : FileTree)
    (path : FilePath) : Except FileFault Location :=
  t.locatePieces path (trimmedPieces path)

/- The path leads to a directory. -/
def IsDirectory
    (t : FileTree)
    (path : FilePath) : Prop :=
  match t.locate path with
  | .error _ => False
  | .ok place =>
      match t.at? place with
      | none => False
      | some n => n.IsDirectory

instance
    (t : FileTree)
    (path : FilePath) :
    Decidable (t.IsDirectory path) := by
  unfold IsDirectory
  split
  · infer_instance
  · split <;> infer_instance

------------------------------------------------------------
-- Reading
------------------------------------------------------------

/- The text of the file that a path leads to. -/
def read
    (t : FileTree)
    (path : FilePath) : Except FileFault String :=
  match t.locate path with
  | .error fault => .error fault
  | .ok place =>
      match t.at? place with
      | none => .error .notFound
      | some .directory => .error .isDirectory
      | some (.file content) =>
          match String.fromUTF8? content with
          | none => .error .notText
          | some text => .ok text

/- The text of a file, or nothing if there is no such file. -/
def readIfExists
    (t : FileTree)
    (path : FilePath) : Except FileFault (Option String) :=
  match t.read path with
  | .ok text => .ok (some text)
  | .error .notFound => .ok none
  | .error fault => .error fault

------------------------------------------------------------
-- Directories
------------------------------------------------------------

/- Make one directory. -/
def makeDir
    (path : FilePath)
    (t : FileTree) : Except FileFault FileTree :=
  match t.locateTrimmed path with
  | .error fault => .error fault
  | .ok place =>
      match t.at? place with
      | some _ => .error .alreadyExists
      | none => .ok (t.put place .directory)

/- Make one directory unless it is there. -/
def makeDirIfAbsent
    (path : FilePath)
    (t : FileTree) : Except FileFault Unit × FileTree :=
  match t.makeDir path with
  | .ok made => (.ok (), made)
  | .error fault =>
      if t.IsDirectory path then
        (.ok (), t)
      else
        (.error fault, t)

/-
  Make a directory and, if something on the way to it is
  missing, the directories that lead to it first.  The second
  argument lists the paths that lead to it, nearest first.
-/
def ensureDirFrom
    (path : FilePath) :
    List FilePath → FileTree → Except FileFault Unit × FileTree
| [], t =>
    if path.text = "" then
      (.ok (), t)
    else
      t.makeDirIfAbsent path
| parent :: rest, t =>
    if path.text = "" then
      (.ok (), t)
    else
      match t.makeDir path with
      | .error .notFound =>
          match ensureDirFrom parent rest t with
          | (.error fault, u) => (.error fault, u)
          | (.ok (), u) => u.makeDirIfAbsent path
      | _ => t.makeDirIfAbsent path

/- The paths above a path, nearest first, at most so many. -/
def parentsUpTo : Nat → FilePath → List FilePath
| 0, _ => []
| n + 1, path =>
    match path.parent? with
    | none => []
    | some parent => parent :: parentsUpTo n parent

/- The paths above a path, nearest first. -/
def parents (path : FilePath) : List FilePath :=
  parentsUpTo (path.text.length + 1) path

/- Make a directory with all that leads to it, if need be. -/
def ensureDir
    (path : FilePath)
    (t : FileTree) : Except FileFault Unit × FileTree :=
  ensureDirFrom path (parents path) t

------------------------------------------------------------
-- Writing
------------------------------------------------------------

/- Store content in a file, in place of what it held. -/
def store
    (path : FilePath)
    (content : ByteArray)
    (t : FileTree) : Except FileFault Unit × FileTree :=
  match t.locateTrimmed path with
  | .error fault => (.error fault, t)
  | .ok place =>
      if EndsInSlash path then
        (.error .isDirectory, t)
      else
        match t.at? place with
        | some .directory => (.error .isDirectory, t)
        | _ => (.ok (), t.put place (.file content))

/- Write a text to a file, in place of what it held. -/
def write
    (path : FilePath)
    (text : String)
    (t : FileTree) : Except FileFault Unit × FileTree :=
  t.store path text.toUTF8

/-
  Write a text to a new file.  The answer says whether there
  was nothing at its place before; if there was, nothing is
  written.
-/
def create
    (path : FilePath)
    (text : String)
    (t : FileTree) : Except FileFault Bool × FileTree :=
  match t.locateTrimmed path with
  | .error fault => (.error fault, t)
  | .ok place =>
      if EndsInSlash path then
        (.error .isDirectory, t)
      else
        match t.at? place with
        | some _ => (.ok false, t)
        | none => (.ok true, t.put place (Node.ofText text))

end FileTree

end Palimpsest
