import Palimpsest.Fragment.Basic
import Palimpsest.Writer

/-
  This file defines how a fragment tree is written.

  A simple fragment and a method are preceded by their
  documentation, annotations and sections before, and followed
  by their sections after.  The sections after a classifier
  stand at the start of its body.  A group writes its children
  and a module its package fragment; a template writes its
  source and nothing else.

  Key definitions include:
    * `Palimpsest.Info.writePrologue`
    * `Palimpsest.Info.writeAfter`
    * `Palimpsest.Fragment.write`
    * `Palimpsest.Fragment.render`
-/

namespace Palimpsest

------------------------------------------------------------
-- Around A Fragment
------------------------------------------------------------

namespace Info

/- Write the documentation, if there is any. -/
def writeDocumentation
    (style : SectionStyle)
    (i : Info)
    (w : Writer) : Writer :=
  match i.documentation with
  | none => w
  | some text => (w.block text).spacer style

/- Write what stands before a fragment. -/
def writePrologue
    (style : SectionStyle)
    (i : Info)
    (w : Writer) : Writer :=
  ((i.writeDocumentation style w).lineAll
    i.annotations).writeSections style i.before

/- Write what stands after a fragment. -/
def writeAfter
    (style : SectionStyle)
    (i : Info)
    (w : Writer) : Writer :=
  w.writeSections style i.after

end Info

------------------------------------------------------------
-- Fragments
------------------------------------------------------------

namespace Fragment

/- Write a body section between braces, or end the line. -/
def writeBody
    (style : SectionStyle)
    (signature : String)
    (body : Option Section)
    (w : Writer) : Writer :=
  match body with
  | some s =>
      (((w.line (signature ++ " \x7b")).indent.writeSection
        style s).outdent).line "\x7d"
  | none => w.line (signature ++ ";")

/- Write the source of a template. -/
def writeSource
    (source : String)
    (w : Writer) : Writer :=
  if source = "" then w else w.verbatimAll (Text.lines source)

mutual

/- Write a fragment. -/
def write (style : SectionStyle) :
    Fragment → Writer → Writer
| .module _ p _, w => writeOption style p w
| .classifier i h m d ms x, w =>
    let w := writeOption style h w
    let w := writeOption style m w
    let w := i.writePrologue style w
    let w := (w.line (d ++ " \x7b")).indent
    let w := i.writeAfter style w
    let w := (writeList style ms w).outdent
    let w := w.writeSections style x.toList
    w.line "\x7d"
| .group _ cs, w => writeList style cs w
| .method i s _ b, w =>
    let w := i.writePrologue style w
    let w := writeBody style s b w
    let w := i.writeAfter style w
    w.spacer style
| .simple i t, w =>
    let w := i.writePrologue style w
    let w := w.block t
    let w := i.writeAfter style w
    w.spacer style
| .template _ s, w => writeSource s w

/- Write an optional fragment. -/
def writeOption (style : SectionStyle) :
    Option Fragment → Writer → Writer
| none, w => w
| some f, w => write style f w

/- Write fragments one after another. -/
def writeList (style : SectionStyle) :
    List Fragment → Writer → Writer
| [], w => w
| f :: fs, w => writeList style fs (write style f w)

end

/- The text of a fragment. -/
def render
    (unit : String)
    (style : SectionStyle)
    (f : Fragment) : String :=
  (f.write style (Writer.start unit)).finish

end Fragment

end Palimpsest
