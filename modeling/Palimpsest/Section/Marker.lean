import Palimpsest.Section.Basic
import Palimpsest.Text.Lines

/-
  This file defines the markers that stand around a section in
  a generated text, and how a line is recognised as a marker.

  A begin marker holds the id of the section between double
  angle brackets; an end marker has the closing brackets only.
  Both are recognised anywhere in a line.  Of several begin
  markers in one line the leftmost counts, and its id reaches
  as far to the right as it can.

  Key definitions include:
    * `Palimpsest.Marker.beginMarker`
    * `Palimpsest.Marker.endMarker`
    * `Palimpsest.Marker.markedId?`
    * `Palimpsest.Marker.IsEnd`
-/

namespace Palimpsest

namespace Marker

------------------------------------------------------------
-- Writing Markers
------------------------------------------------------------

/- The comment sign and the rule that start every marker. -/
def rule : String :=
  "// -----------"

/- The part of a begin marker before the id. -/
def opening : String :=
  rule ++ " << "

/- The part of a begin marker after the id. -/
def closing : String :=
  " >>"

/- The line before a section. -/
def beginMarker (id : SectionId) : String :=
  opening ++ id.text ++ closing

/- The line after a section. -/
def endMarker : String :=
  rule ++ closing

------------------------------------------------------------
-- Recognising Markers
------------------------------------------------------------

/-
  The longest id at the start of a text: it ends before a
  closing part and holds no newline.
-/
def leadingId? (text : List Char) : Option (List Char) :=
  Text.beforeLast? closing.toList
    (text.takeWhile (fun c => decide (c ≠ Text.newline)))

/- The id of a begin marker at the very start of a text. -/
def idAtStart? (text : List Char) : Option (List Char) :=
  (Text.dropPrefix? opening.toList text).bind leadingId?

/- The id of the leftmost begin marker in a text. -/
def leftmostId? : List Char → Option (List Char)
| [] => none
| c :: text =>
    match idAtStart? (c :: text) with
    | some id => some id
    | none => leftmostId? text

/- The id in a line that is a begin marker. -/
def markedId? (line : String) : Option String :=
  (leftmostId? line.toList).map String.ofList

/- A line is a begin marker when one is found in it. -/
def IsBegin (line : String) : Prop :=
  (markedId? line).isSome

instance (line : String) : Decidable (IsBegin line) := by
  unfold IsBegin
  infer_instance

/- A line is an end marker when one occurs in it. -/
def IsEnd (line : String) : Prop :=
  Text.Occurs endMarker.toList line.toList

instance (line : String) : Decidable (IsEnd line) := by
  unfold IsEnd
  infer_instance

end Marker

end Palimpsest
