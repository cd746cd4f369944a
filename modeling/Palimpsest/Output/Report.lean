import Palimpsest.Digest.Checksum
import Palimpsest.Files.Tree
import Palimpsest.Fragment.Error
import Palimpsest.Section.Scan

/-
  This file defines the reports on written units.

  Every unit is reported by name and kind, with the place that
  it was written to and either a summary or the fault that
  stopped it.

  Key definitions include:
    * `Palimpsest.UnitError`
    * `Palimpsest.UnitKind`
    * `Palimpsest.Summary`
    * `Palimpsest.UnitReport`
    * `Palimpsest.Report`
    * `Palimpsest.Report.display`
-/

namespace Palimpsest

------------------------------------------------------------
-- Faults
------------------------------------------------------------

/- The faults that stop a unit. -/
inductive UnitError where
| read (path : FilePath) (cause : FileFault)
| write (path : FilePath) (cause : FileFault)
| createDir (path : FilePath) (cause : FileFault)
| scan (path : FilePath) (cause : ScanError)
| fragment (cause : FragmentError)
deriving DecidableEq

/- The message for a fault. -/
def UnitError.message : UnitError → String
| .read path cause =>
    "io error reading " ++ path.text ++ ": " ++ cause.message
| .write path cause =>
    "io error writing " ++ path.text ++ ": " ++ cause.message
| .createDir path cause =>
    "io error creating directory " ++ path.text ++ ": " ++
      cause.message
| .scan path cause =>
    "malformed preserve sections in " ++ path.text ++ ": " ++
      cause.message
| .fragment cause => "fragment error: " ++ cause.message

------------------------------------------------------------
-- Units
------------------------------------------------------------

/- The kinds of units. -/
inductive UnitKind where
| module
| packageFile
| classifier
| template
| unsupported
deriving DecidableEq, Repr

/- The name of a kind of unit. -/
def UnitKind.name : UnitKind → String
| .module => "module"
| .packageFile => "package file"
| .classifier => "classifier"
| .template => "template"
| .unsupported => "unsupported fragment"

/- The kind of unit with the given name, if there is one. -/
def UnitKind.ofName? (name : String) : Option UnitKind :=
  [UnitKind.module, .packageFile, .classifier, .template,
    .unsupported].find? (fun kind => kind.name = name)

/-
  What happened to a unit that was not stopped: whether there
  was a previous text, which recovered sections were applied
  and which were not, the checksum of the text written, and
  whether it was written.
-/
structure Summary where
  sourceFound : Bool
  grafted : List SectionId
  orphaned : List SectionId
  checksum : Option Checksum
  written : Bool
deriving DecidableEq

/- A summary that reports nothing. -/
def Summary.blank : Summary where
  sourceFound := false
  grafted := []
  orphaned := []
  checksum := none
  written := false

/- The report on one unit. -/
structure UnitReport where
  name : String
  kind : UnitKind
  destination : Option FilePath
  outcome : Except UnitError Summary

namespace UnitReport

/- The summary of a unit that was not stopped. -/
def summary? (u : UnitReport) : Option Summary :=
  match u.outcome with
  | .ok s => some s
  | .error _ => none

/- The unit was not stopped. -/
def IsSuccess (u : UnitReport) : Prop :=
  u.summary?.isSome

instance (u : UnitReport) : Decidable u.IsSuccess := by
  unfold IsSuccess
  infer_instance

/- The summary of a unit is that of its outcome. -/
theorem summary?_eq_some_iff
    {u : UnitReport}
    {s : Summary} :
    u.summary? = some s ↔ u.outcome = .ok s := by
  unfold summary?
  cases u.outcome <;> simp

/- A unit that was not stopped has a summary. -/
theorem exists_outcome_of_isSuccess
    {u : UnitReport}
    (h : u.IsSuccess) :
    ∃ s, u.outcome = .ok s := by
  rcases Option.isSome_iff_exists.mp h with ⟨s, hs⟩
  exact ⟨s, summary?_eq_some_iff.mp hs⟩

/- The unit was written. -/
def IsWritten (u : UnitReport) : Prop :=
  ∃ s ∈ u.summary?, s.written = true

instance (u : UnitReport) : Decidable u.IsWritten :=
  match h : u.summary? with
  | none => isFalse (by simp [IsWritten, h])
  | some s =>
      decidable_of_iff (s.written = true)
        (by simp [IsWritten, h])

/- The recovered sections that were not applied. -/
def orphaned (u : UnitReport) : List SectionId :=
  match u.summary? with
  | some s => s.orphaned
  | none => []

/- The report on a unit that was stopped before it had a place. -/
def failed
    (name : String)
    (kind : UnitKind)
    (error : UnitError) : UnitReport :=
  ⟨name, kind, none, .error error⟩

end UnitReport

------------------------------------------------------------
-- Reports
------------------------------------------------------------

/- The reports on all units of a pass, in order. -/
structure Report where
  units : List UnitReport

namespace Report

/- The report on no unit. -/
def empty : Report :=
  ⟨[]⟩

/- Add the report on one more unit. -/
def push
    (r : Report)
    (u : UnitReport) : Report :=
  ⟨r.units ++ [u]⟩

/- Add the reports on more units. -/
def extend
    (r : Report)
    (units : List UnitReport) : Report :=
  ⟨r.units ++ units⟩

/- No unit was stopped. -/
def IsSuccess (r : Report) : Prop :=
  ∀ u ∈ r.units, u.IsSuccess

instance (r : Report) : Decidable r.IsSuccess := by
  unfold IsSuccess
  infer_instance

/- The units that were stopped. -/
def failures (r : Report) : List UnitReport :=
  r.units.filter (fun u => ¬ u.IsSuccess)

/- The number of units that were written. -/
def writtenCount (r : Report) : Nat :=
  r.units.countP (fun u => u.IsWritten)

/- The sections that were not applied, with their units. -/
def orphans (r : Report) : List (String × SectionId) :=
  r.units.flatMap
    (fun u => u.orphaned.map (fun id => (u.name, id)))

/- The first unit with a name and a kind. -/
def find?
    (r : Report)
    (name : String)
    (kind : UnitKind) : Option UnitReport :=
  r.units.find? (fun u => u.name = name ∧ u.kind = kind)

/- One line that counts the units. -/
def display (r : Report) : String :=
  toString r.units.length ++ " units, " ++
    toString r.writtenCount ++ " written, " ++
      toString r.failures.length ++ " failed, " ++
        toString r.orphans.length ++ " orphaned sections"

end Report

end Palimpsest
