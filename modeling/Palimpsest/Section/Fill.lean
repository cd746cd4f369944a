import Palimpsest.Section.Marker

/-
  This file defines how a section is filled in by hand in a
  text: its lines are exchanged and its markers stay.

  The section starts after the first line that shows its id in
  double angle brackets.  It ends at the next line that starts
  with an end marker after its leading blanks; if there is no
  such line, the rest of the text is lost.

  Key definitions include:
    * `Palimpsest.fillSection`
-/

namespace Palimpsest

------------------------------------------------------------
-- Filling
------------------------------------------------------------

namespace Fill

/- The text that shows where a section starts. -/
def label (id : SectionId) : String :=
  "<< " ++ id.text ++ " >>"

/- A line that shows the id of the section. -/
def Opens
    (id : SectionId)
    (line : String) : Prop :=
  Text.Occurs (label id).toList line.toList

instance
    (id : SectionId)
    (line : String) :
    Decidable (Opens id line) := by
  unfold Opens
  infer_instance

/- A line that starts with an end marker, blanks aside. -/
def Closes (line : String) : Prop :=
  Marker.endMarker.toList.isPrefixOf
    (Text.trimStart line.toList) = true

instance (line : String) : Decidable (Closes line) := by
  unfold Closes
  infer_instance

/- Exchange the lines, given whether the section is open. -/
def fillLines
    (id : SectionId)
    (contents : List String) :
    Bool → List String → List String
| _, [] => []
| true, line :: rest =>
    if Closes line then
      contents ++ line :: fillLines id contents false rest
    else
      fillLines id contents true rest
| false, line :: rest =>
    line ::
      fillLines id contents (decide (Opens id line)) rest

end Fill

/- The text in which the lines of a section are exchanged. -/
def fillSection
    (text : String)
    (id : SectionId)
    (contents : List String) : String :=
  Text.unlines
    (Fill.fillLines id contents false (Text.lines text))

end Palimpsest
