import Palimpsest.Section.Marker

/-
  This file defines how sections are recovered from a text.

  The lines of the text are read one after another.  Outside a
  section a begin marker opens one and every other line is
  passed over; inside a section an end marker closes it, a
  begin marker is a fault, and every other line belongs to the
  section.

  Key definitions include:
    * `Palimpsest.ScanError`
    * `Palimpsest.Scanner`
    * `Palimpsest.Scanner.feed`
    * `Palimpsest.Scanner.finish`
    * `Palimpsest.scanLines`
    * `Palimpsest.scan`
-/

namespace Palimpsest

------------------------------------------------------------
-- Faults
------------------------------------------------------------

/- The ways in which the markers of a text can be malformed. -/
inductive ScanError where
| nested (openId : SectionId) (line : Nat)
| unterminated (id : SectionId) (openedAt : Nat)
| invalidId (line : Nat) (cause : InvalidSectionId)
deriving DecidableEq

namespace ScanError

/- The number of the line that the fault is reported at. -/
def line : ScanError → Nat
| .nested _ line => line
| .unterminated _ openedAt => openedAt
| .invalidId line _ => line

/- The message for a fault. -/
def message : ScanError → String
| .nested openId line =>
    "nested preserve section at line " ++ toString line ++
      ": section '" ++ openId.text ++
        "' is missing its end marker"
| .unterminated id openedAt =>
    "missing preserve section end marker for '" ++ id.text ++
      "' (opened at line " ++ toString openedAt ++ ")"
| .invalidId line cause =>
    "invalid preserve section id at line " ++ toString line ++
      ": " ++ cause.message

end ScanError

------------------------------------------------------------
-- The Scanner
------------------------------------------------------------

/- A section whose end marker has not been read yet. -/
structure OpenSection where
  id : SectionId
  openedAt : Nat
  contents : Array String

/- The section that an open section becomes when it is closed. -/
def OpenSection.close (s : OpenSection) : Section :=
  ⟨s.id, s.contents.toList⟩

/-
  The state between two lines: the number of lines read, the
  sections closed so far, and the open section, if any.
-/
structure Scanner where
  line : Nat
  closed : Array Section
  open? : Option OpenSection

namespace Scanner

/- The state before the first line. -/
def start : Scanner :=
  ⟨0, #[], none⟩

/- The sections recovered so far, with the open one last. -/
def sections (s : Scanner) : List Section :=
  s.closed.toList ++ (s.open?.map OpenSection.close).toList

/- Read a line outside every section. -/
private def feedPlain
    (s : Scanner)
    (line : String) :
    Except ScanError (Option OpenSection) :=
  match Marker.markedId? line with
  | none => .ok none
  | some text =>
      match SectionId.ofString text with
      | .ok id => .ok (some ⟨id, s.line, #[]⟩)
      | .error cause => .error (.invalidId s.line cause)

/- Read a line inside a section. -/
private def feedOpen
    (s : Scanner)
    (current : OpenSection)
    (line : String) : Except ScanError Scanner :=
  if Marker.IsEnd line then
    .ok { s with
      closed := s.closed.push current.close
      open? := none }
  else if Marker.IsBegin line then
    .error (.nested current.id s.line)
  else
    .ok { s with
      open? := some { current with
        contents := current.contents.push line } }

/-
  Read the next line.  A line at fault is counted and changes
  nothing else.
-/
def feed
    (s : Scanner)
    (line : String) : Scanner × Except ScanError Unit :=
  let counted := { s with line := s.line + 1 }
  match s.open? with
  | none =>
      match counted.feedPlain line with
      | .ok opened => ({ counted with open? := opened }, .ok ())
      | .error fault => (counted, .error fault)
  | some current =>
      match counted.feedOpen current line with
      | .ok next => (next, .ok ())
      | .error fault => (counted, .error fault)

/- The recovered sections, unless one is still open. -/
def finish (s : Scanner) : Except ScanError (List Section) :=
  match s.open? with
  | none => .ok s.closed.toList
  | some current =>
      .error (.unterminated current.id current.openedAt)

/- Read lines up to the first fault. -/
def feedAll
    (s : Scanner) : List String → Except ScanError Scanner
| [] => .ok s
| line :: rest =>
    match s.feed line with
    | (next, .ok ()) => next.feedAll rest
    | (_, .error fault) => .error fault

end Scanner

------------------------------------------------------------
-- What One Line Does
------------------------------------------------------------

namespace Scanner

variable {s : Scanner} {current : OpenSection} {line : String}

/- Outside a section, most lines are passed over. -/
theorem feed_plain
    (hOpen : s.open? = none)
    (hLine : ¬ Marker.IsBegin line) :
    s.feed line = ({ s with line := s.line + 1 }, .ok ()) := by
  have hId : Marker.markedId? line = none := by
    simpa [Marker.IsBegin] using hLine
  cases s
  simp_all [feed, feedPlain]

/- Outside a section, a begin marker opens one. -/
theorem feed_begin
    {id : SectionId}
    (hOpen : s.open? = none)
    (hLine : Marker.markedId? line = some id.text) :
    s.feed line =
      ({ s with
          line := s.line + 1
          open? := some ⟨id, s.line + 1, #[]⟩ }, .ok ()) := by
  cases s
  simp_all [feed, feedPlain]

/- Outside a section, a begin marker needs a valid id. -/
theorem feed_invalid
    {text : String}
    (hOpen : s.open? = none)
    (hLine : Marker.markedId? line = some text)
    (hText : ¬ SectionId.Valid text) :
    s.feed line =
      ({ s with line := s.line + 1 },
        .error (.invalidId (s.line + 1) ⟨text⟩)) := by
  have hRefused :
      SectionId.ofString text = .error ⟨text⟩ := by
    simp [SectionId.ofString, hText]
  cases s
  simp_all [feed, feedPlain]

/- Inside a section, an end marker closes it. -/
theorem feed_end
    (hOpen : s.open? = some current)
    (hLine : Marker.IsEnd line) :
    s.feed line =
      ({ line := s.line + 1
         closed := s.closed.push current.close
         open? := none }, .ok ()) := by
  cases s
  simp_all [feed, feedOpen]

/- Inside a section, a begin marker is a fault. -/
theorem feed_nested
    (hOpen : s.open? = some current)
    (hEnd : ¬ Marker.IsEnd line)
    (hLine : Marker.IsBegin line) :
    s.feed line =
      ({ s with line := s.line + 1 },
        .error (.nested current.id (s.line + 1))) := by
  cases s
  simp_all [feed, feedOpen]

/- Inside a section, every other line belongs to it. -/
theorem feed_content
    (hOpen : s.open? = some current)
    (hEnd : ¬ Marker.IsEnd line)
    (hLine : ¬ Marker.IsBegin line) :
    s.feed line =
      ({ s with
          line := s.line + 1
          open? := some { current with
            contents := current.contents.push line } },
        .ok ()) := by
  cases s
  simp_all [feed, feedOpen]

/- A line without a fault leads on to the next one. -/
theorem feedAll_cons_of_ok
    {next : Scanner}
    (hLine : s.feed line = (next, .ok ()))
    (rest : List String) :
    s.feedAll (line :: rest) = next.feedAll rest := by
  rw [feedAll, hLine]

/- A fault ends the reading. -/
theorem feedAll_cons_of_error
    {next : Scanner}
    {fault : ScanError}
    (hLine : s.feed line = (next, .error fault))
    (rest : List String) :
    s.feedAll (line :: rest) = .error fault := by
  rw [feedAll, hLine]

end Scanner

------------------------------------------------------------
-- Scanning Texts
------------------------------------------------------------

/- The sections in a list of lines, in order. -/
def scanLines
    (lines : List String) :
    Except ScanError (List Section) :=
  match Scanner.start.feedAll lines with
  | .ok s => s.finish
  | .error fault => .error fault

/- The sections in a text, in order. -/
def scan (text : String) : Except ScanError (List Section) :=
  scanLines (Text.lines text)

end Palimpsest
