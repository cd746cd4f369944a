import Palimpsest.FilePath

/-
  This file defines qualified names: the dotted names of
  modules and classifiers.

  A qualified name also says where a unit is stored: each
  segment is one directory, and the last one names the file.

  Key definitions include:
    * `Palimpsest.QualifiedName`
    * `Palimpsest.NameError`
    * `Palimpsest.QualifiedName.parse`
    * `Palimpsest.QualifiedName.dotted`
    * `Palimpsest.QualifiedName.parent?`
    * `Palimpsest.QualifiedName.child`
    * `Palimpsest.QualifiedName.dirPath`
    * `Palimpsest.QualifiedName.filePath`
-/

namespace Palimpsest

------------------------------------------------------------
-- Qualified Names
------------------------------------------------------------

/- A name made of segments, outermost first. -/
structure QualifiedName where
  segments : List String
deriving DecidableEq, Repr

/- The ways in which a text can fail to be a dotted name. -/
inductive NameError where
| empty
| emptySegment
| invalidSegment (segment : String)
deriving DecidableEq, Repr

/- The message for a refused name. -/
def NameError.message : NameError → String
| .empty => "qualified name is empty"
| .emptySegment => "qualified name contains empty segment"
| .invalidSegment segment =>
    "invalid segment: " ++ segment ++
      " (path separators are not allowed)"

namespace QualifiedName

------------------------------------------------------------
-- Reading And Showing
------------------------------------------------------------

/- A character that may not stand in a segment. -/
def IsForbidden (c : Char) : Prop :=
  c = '/' ∨ c = '\\' ∨ c = '\x00'

instance (c : Char) : Decidable (IsForbidden c) := by
  unfold IsForbidden
  infer_instance

/- A text with a character that a segment cannot hold. -/
def HasForbidden (text : List Char) : Prop :=
  ∃ c ∈ text, IsForbidden c

instance (text : List Char) : Decidable (HasForbidden text) :=
  List.decidableBEx _ _

/- Accept a text as a segment. -/
def checkSegment
    (segment : String) : Except NameError String :=
  if segment = "" then
    .error .emptySegment
  else if HasForbidden segment.toList then
    .error (.invalidSegment segment)
  else
    .ok segment

/- Accept texts as segments, up to the first refusal. -/
def checkSegments :
    List String → Except NameError (List String)
| [] => .ok []
| segment :: rest =>
    match checkSegment segment with
    | .error e => .error e
    | .ok s =>
        match checkSegments rest with
        | .error e => .error e
        | .ok ss => .ok (s :: ss)

/- The name that a dotted text stands for. -/
def parse (text : String) : Except NameError QualifiedName :=
  if text = "" then
    .error .empty
  else
    match checkSegments (Text.splitAt '.' text) with
    | .error e => .error e
    | .ok segments => .ok ⟨segments⟩

/- The segments with a separator between neighbours. -/
def join
    (separator : String)
    (name : QualifiedName) : String :=
  Text.joinWith separator name.segments

/- The dotted text of a name. -/
def dotted (name : QualifiedName) : String :=
  name.join "."

------------------------------------------------------------
-- Enclosing And Enclosed Names
------------------------------------------------------------

/- The last segment. -/
def last? (name : QualifiedName) : Option String :=
  name.segments.getLast?

/- The enclosing name, if the name has two segments or more. -/
def parent? (name : QualifiedName) : Option QualifiedName :=
  match name.segments with
  | [] => none
  | [_] => none
  | segments => some ⟨segments.dropLast⟩

/- The name with one more segment. -/
def child
    (name : QualifiedName)
    (segment : String) : QualifiedName :=
  ⟨name.segments ++ [segment]⟩

------------------------------------------------------------
-- Places In A File Tree
------------------------------------------------------------

/- The directory with one level for each segment. -/
def dirPath (name : QualifiedName) : FilePath :=
  FilePath.ofSegments name.segments

/- The file of a unit with this name. -/
def filePath
    (extension : String)
    (name : QualifiedName) : FilePath :=
  if extension = "" then
    name.dirPath
  else
    name.dirPath.withExtension extension

end QualifiedName

end Palimpsest
