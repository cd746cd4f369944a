import Palimpsest.Text.Lines

/-
  This file defines file paths and the arithmetic on them.

  A path is a text cut at its slashes.  A path that starts
  with a slash is absolute.  Nothing is normalised: empty
  parts and single dots stay in the text, but they are passed
  over when the parts of a path are looked at, except for a
  dot at the very start.

  Key definitions include:
    * `Palimpsest.FilePath`
    * `Palimpsest.FilePath.join`
    * `Palimpsest.FilePath.parent?`
    * `Palimpsest.FilePath.fileName?`
    * `Palimpsest.FilePath.extension?`
    * `Palimpsest.FilePath.withExtension`
    * `Palimpsest.FilePath.components`
    * `Palimpsest.FilePath.Precedes`
-/

namespace Palimpsest

------------------------------------------------------------
-- Paths
------------------------------------------------------------

/- A path, as it is written. -/
structure FilePath where
  text : String
deriving DecidableEq, Repr

namespace FilePath

/- The character between the parts of a path. -/
def separator : Char :=
  '/'

/- The texts between the slashes, empty ones included. -/
def pieces (path : FilePath) : List String :=
  Text.splitAt separator path.text

/- A path that starts at the root. -/
def IsAbsolute (path : FilePath) : Prop :=
  path.text.toList.head? = some separator

instance (path : FilePath) : Decidable path.IsAbsolute := by
  unfold IsAbsolute
  infer_instance

/- The path without any text. -/
def empty : FilePath :=
  ⟨""⟩

/-
  Append a path.  An absolute path replaces what stands before
  it, and a slash is put between unless there is one already.
-/
def join (base path : FilePath) : FilePath :=
  if path.IsAbsolute then
    path
  else if base.text.toList.getLast?.all
      (fun c => decide (c = separator)) then
    ⟨base.text ++ path.text⟩
  else
    ⟨base.text ++ "/" ++ path.text⟩

/- The path built by appending texts one after another. -/
def ofSegments (segments : List String) : FilePath :=
  segments.foldl (fun path s => path.join ⟨s⟩) empty

------------------------------------------------------------
-- Parts
------------------------------------------------------------

/-
  A path cut in two: what it starts from (the root, the
  current directory written as a dot, or nothing) and the
  pieces after that.
-/
structure Split where
  start : String
  pieces : List String

/- A piece that stands for no step along the path. -/
def IsIdle (piece : String) : Prop :=
  piece = "" ∨ piece = "."

instance (piece : String) : Decidable (IsIdle piece) := by
  unfold IsIdle
  infer_instance

/- Cut off what a path starts from. -/
def split (path : FilePath) : Split :=
  match path.pieces with
  | "" :: rest =>
      if path.IsAbsolute then ⟨"/", rest⟩ else ⟨"", []⟩
  | "." :: rest => ⟨".", if rest = [] then [] else "" :: rest⟩
  | pieces => ⟨"", pieces⟩

/- The path with the given start and pieces. -/
def Split.toPath (s : Split) : FilePath :=
  ⟨s.start ++ Text.joinWith "/" s.pieces⟩

/- Drop idle pieces at the end. -/
def dropIdleEnd (pieces : List String) : List String :=
  (pieces.reverse.dropWhile
    (fun piece => decide (IsIdle piece))).reverse

/- The path without its last part, if it has one. -/
def parent? (path : FilePath) : Option FilePath :=
  let s := path.split
  match dropIdleEnd s.pieces with
  | [] => if s.start = "." then some empty else none
  | pieces =>
      some (Split.toPath
        ⟨s.start, dropIdleEnd pieces.dropLast⟩)

/- The last part of a path, unless it leads to a parent. -/
def fileName? (path : FilePath) : Option String :=
  match (dropIdleEnd path.split.pieces).getLast? with
  | none => none
  | some name => if name = ".." then none else some name

------------------------------------------------------------
-- Extensions
------------------------------------------------------------

/-
  A file name cut at its last dot, unless that dot is its
  first character.
-/
def cutExtension (name : String) : String × Option String :=
  match (Text.splitAt '.' name).reverse with
  | [] => (name, none)
  | [_] => (name, none)
  | last :: before =>
      if before = [""] then
        (name, none)
      else
        (Text.joinWith "." before.reverse, some last)

/- The text after the last dot of the file name. -/
def extension? (path : FilePath) : Option String :=
  path.fileName?.bind (fun name => (cutExtension name).2)

/-
  Put another extension in place of the present one.  A path
  without a file name is left alone.
-/
def withExtension
    (extension : String)
    (path : FilePath) : FilePath :=
  match path.fileName? with
  | none => path
  | some name =>
      let s := path.split
      let stem := (cutExtension name).1
      let bare := Split.toPath
        ⟨s.start,
          (dropIdleEnd s.pieces).dropLast ++ [stem]⟩
      if extension = "" then
        bare
      else
        ⟨bare.text ++ "." ++ extension⟩

------------------------------------------------------------
-- Comparing Paths
------------------------------------------------------------

/- The pieces that are steps, without the idle ones. -/
def namesOf (pieces : List String) : List String :=
  pieces.filter (fun piece => ¬ IsIdle piece)

/- The steps of a path. -/
def names (path : FilePath) : List String :=
  namesOf path.pieces

/-
  What counts when paths are compared: what a path starts from
  (the root or the dot of the current directory), and then its
  steps.
-/
def components (path : FilePath) : List String :=
  (if path.split.start = "" then [] else [path.split.start]) ++
    path.names

/-
  The order of paths below one directory, component by
  component: the first name in which they differ decides.
-/
def Precedes (first second : FilePath) : Prop :=
  ¬ second.components < first.components

instance (first second : FilePath) :
    Decidable (Precedes first second) := by
  unfold Precedes
  infer_instance

end FilePath

end Palimpsest
