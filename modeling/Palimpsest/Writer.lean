import Palimpsest.Section.Marker

/-
  This file defines the writer that collects the lines of a
  generated text.

  A generated line is indented by the current depth unless it
  is empty; the lines of a section are taken over as they are.
  In the marked style a section stands between its markers and
  a blank line separates neighbours; in the inline style only
  the lines of the section are written.

  Key definitions include:
    * `Palimpsest.Writer`
    * `Palimpsest.Writer.line`
    * `Palimpsest.Writer.block`
    * `Palimpsest.SectionStyle`
    * `Palimpsest.Writer.writeSection`
    * `Palimpsest.Writer.spacer`
    * `Palimpsest.Writer.finish`
-/

namespace Palimpsest

------------------------------------------------------------
-- Lines And Depth
------------------------------------------------------------

/- The indentation unit, the depth, and the lines so far. -/
structure Writer where
  unit : String
  depth : Nat
  lines : Array String
deriving DecidableEq, Repr

namespace Writer

/- A writer without lines. -/
def start (unit : String) : Writer :=
  ⟨unit, 0, #[]⟩

/- Go one level deeper. -/
def indent (w : Writer) : Writer :=
  { w with depth := w.depth + 1 }

/- Go one level back; level zero stays. -/
def outdent (w : Writer) : Writer :=
  { w with depth := w.depth - 1 }

/- The text that indents a line at a depth. -/
def indentation
    (unit : String)
    (depth : Nat) : String :=
  Text.repeated depth unit

/- A line at a depth: indented unless it is empty. -/
def indented
    (unit : String)
    (depth : Nat)
    (text : String) : String :=
  if text = "" then "" else indentation unit depth ++ text

/- Add a line as it is. -/
def verbatim
    (text : String)
    (w : Writer) : Writer :=
  { w with lines := w.lines.push text }

/- Add a line at the current depth. -/
def line
    (text : String)
    (w : Writer) : Writer :=
  w.verbatim (indented w.unit w.depth text)

/- Add an empty line. -/
def blank (w : Writer) : Writer :=
  w.verbatim ""

/- Add lines as they are. -/
def verbatimAll
    (texts : List String)
    (w : Writer) : Writer :=
  texts.foldl (fun w text => w.verbatim text) w

/- Add lines at the current depth. -/
def lineAll
    (texts : List String)
    (w : Writer) : Writer :=
  texts.foldl (fun w text => w.line text) w

/- Add the lines of a text at the current depth. -/
def block
    (text : String)
    (w : Writer) : Writer :=
  w.lineAll (Text.lines text)

/- The text of all lines. -/
def finish (w : Writer) : String :=
  Text.unlines w.lines.toList

end Writer

------------------------------------------------------------
-- Sections
------------------------------------------------------------

/- How sections are written. -/
inductive SectionStyle where
| marked
| inline
deriving DecidableEq, Repr

namespace Writer

/- Write a section. -/
def writeSection
    (style : SectionStyle)
    (s : Section)
    (w : Writer) : Writer :=
  match style with
  | .marked =>
      ((w.line (Marker.beginMarker s.id)).verbatimAll
        s.contents).line Marker.endMarker
  | .inline => w.verbatimAll s.contents

/- Write sections one after another. -/
def writeSections
    (style : SectionStyle)
    (sections : List Section)
    (w : Writer) : Writer :=
  sections.foldl (fun w s => w.writeSection style s) w

/- Separate what was written from what follows. -/
def spacer
    (style : SectionStyle)
    (w : Writer) : Writer :=
  match style with
  | .marked => w.blank
  | .inline => w

end Writer

end Palimpsest
