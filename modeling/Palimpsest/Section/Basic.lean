import Palimpsest.Section.Id

/-
  This file defines sections: the regions of a generated text
  that are edited by hand.

  A section is created empty.  Its lines are filled in by hand
  in the generated file, recovered from there, and written
  back at the place of the section in the next text.

  Key definitions include:
    * `Palimpsest.Section`
    * `Palimpsest.Section.empty`
    * `Palimpsest.Section.append`
    * `Palimpsest.Section.replace`
    * `Palimpsest.Section.appendIf`
    * `Palimpsest.Section.replaceIf`
-/

namespace Palimpsest

------------------------------------------------------------
-- Sections
------------------------------------------------------------

/- A region edited by hand: its id and its lines. -/
structure Section where
  id : SectionId
  contents : List String
deriving DecidableEq

namespace Section

/- A section without lines. -/
def empty (id : SectionId) : Section :=
  ⟨id, []⟩

/- A section is fresh while it has no lines. -/
def IsFresh (s : Section) : Prop :=
  s.contents = []

instance (s : Section) : Decidable s.IsFresh := by
  unfold IsFresh
  infer_instance

/- Add one line at the end. -/
def append
    (line : String)
    (s : Section) : Section :=
  { s with contents := s.contents ++ [line] }

/- Put other lines in place of the present ones. -/
def replace
    (contents : List String)
    (s : Section) : Section :=
  { s with contents := contents }

------------------------------------------------------------
-- Sections With A Given Id Text
------------------------------------------------------------

/- Add one line if the section has the given id text. -/
def appendIf
    (id line : String)
    (s : Section) : Section :=
  if s.id.text = id then s.append line else s

/- Replace the lines if the section has the given id text. -/
def replaceIf
    (id : String)
    (contents : List String)
    (s : Section) : Section :=
  if s.id.text = id then s.replace contents else s

end Section

end Palimpsest
