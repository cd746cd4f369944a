import Palimpsest.Section.Scan

/-
  This file defines scanning with all sections in one list.

  A log keeps the recovered sections in one list and notes at
  which line the open one was opened, if one is open.  The
  open section is the last of the list and is looked up there.
  The look-up can come out empty: a line is passed over then,
  and a fault names no section.  Reading goes on after faults.

  Key definitions include:
    * `Palimpsest.ScanLog`
    * `Palimpsest.ScanLog.Fault`
    * `Palimpsest.ScanLog.feed`
    * `Palimpsest.ScanLog.finish`
    * `Palimpsest.ScanLog.feedEach`
    * `Palimpsest.ScanLog.accepted`
    * `Palimpsest.Scanner.log`
-/

namespace Palimpsest

------------------------------------------------------------
-- Logs
------------------------------------------------------------

/-
  The state between two lines: the number of lines read, the
  number of the line that opened a section, if one is open,
  and all sections, with the open one last.
-/
structure ScanLog where
  line : Nat
  openedAt? : Option Nat
  sections : List Section
deriving DecidableEq

namespace ScanLog

/- The ways in which a line or the end can be at fault. -/
inductive Fault where
| nested (openId : String) (line : Nat)
| unterminated (openId : String) (openedAt : Nat)
| invalidId (line : Nat) (cause : InvalidSectionId)
deriving DecidableEq

/- The id of an open section that a fault names. -/
def Fault.openId? : Fault → Option String
| .nested openId _ => some openId
| .unterminated openId _ => some openId
| .invalidId _ _ => none

/- The state before the first line. -/
def start : ScanLog :=
  ⟨0, none, []⟩

/- The state with one more line read. -/
def count (l : ScanLog) : ScanLog :=
  { l with line := l.line + 1 }

------------------------------------------------------------
-- The Last Section
------------------------------------------------------------

/- The id of the last section. -/
def openId (l : ScanLog) : String :=
  match l.sections.getLast? with
  | none => ""
  | some s => s.id.text

/- Add a line to the last section. -/
def preserve
    (l : ScanLog)
    (line : String) : ScanLog :=
  match l.sections.getLast? with
  | none => l
  | some s =>
      { l with
        sections := l.sections.dropLast ++ [s.append line] }

------------------------------------------------------------
-- Reading
------------------------------------------------------------

/- Read a line outside every section. -/
def feedPlain
    (l : ScanLog)
    (line : String) : Except Fault ScanLog :=
  match Marker.markedId? line with
  | none => .ok l
  | some text =>
      match SectionId.ofString text with
      | .ok id =>
          .ok { l with
            openedAt? := some l.line
            sections := l.sections ++ [Section.empty id] }
      | .error cause => .error (.invalidId l.line cause)

/- Read a line inside a section. -/
def feedOpen
    (l : ScanLog)
    (line : String) : Except Fault ScanLog :=
  if Marker.IsEnd line then
    .ok { l with openedAt? := none }
  else if Marker.IsBegin line then
    .error (.nested l.openId l.line)
  else
    .ok (l.preserve line)

/- Read the next line. -/
def feed
    (l : ScanLog)
    (line : String) : ScanLog × Except Fault Unit :=
  let outcome :=
    match l.openedAt? with
    | none => l.count.feedPlain line
    | some _ => l.count.feedOpen line
  match outcome with
  | .ok next => (next, .ok ())
  | .error fault => (l.count, .error fault)

/- The recovered sections, unless one is still open. -/
def finish (l : ScanLog) : Except Fault (List Section) :=
  match l.openedAt? with
  | none => .ok l.sections
  | some openedAt => .error (.unterminated l.openId openedAt)

/- Read lines, going on after faults. -/
def feedEach
    (l : ScanLog) : List String → ScanLog
| [] => l
| line :: rest => (l.feed line).1.feedEach rest

/- The lines that are read without a fault, in order. -/
def accepted
    (l : ScanLog) : List String → List String
| [] => []
| line :: rest =>
    match l.feed line with
    | (next, .ok ()) => line :: next.accepted rest
    | (next, .error _) => next.accepted rest

end ScanLog

------------------------------------------------------------
-- The Log Of A Scanner
------------------------------------------------------------

/- A fault of a scanner, as a log reports it. -/
def ScanError.logged : ScanError → ScanLog.Fault
| .nested openId line => .nested openId.text line
| .unterminated id openedAt => .unterminated id.text openedAt
| .invalidId line cause => .invalidId line cause

namespace Scanner

/- The log with the sections of a scanner. -/
def log (s : Scanner) : ScanLog where
  line := s.line
  openedAt? := s.open?.map OpenSection.openedAt
  sections := s.sections

/- Read lines, going on after faults. -/
def feedEach
    (s : Scanner) : List String → Scanner
| [] => s
| line :: rest => (s.feed line).1.feedEach rest

end Scanner

end Palimpsest
