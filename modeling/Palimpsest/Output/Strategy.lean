import Palimpsest.FilePath
import Palimpsest.Writer

/-
  This file defines the strategies for writing units.

  Updating writes every unit over its previous text and keeps
  the markers, so that the sections can be recovered again.
  Exporting reads the previous texts from the same place but
  writes below another root, without markers.

  Key definitions include:
    * `Palimpsest.Strategy`
    * `Palimpsest.Strategy.select`
    * `Palimpsest.Strategy.root`
    * `Palimpsest.Strategy.sourcePath`
    * `Palimpsest.Strategy.destinationPath`
    * `Palimpsest.Strategy.style`
-/

namespace Palimpsest

------------------------------------------------------------
-- Strategies
------------------------------------------------------------

/- The ways of writing units. -/
inductive Strategy where
| update
| exportTo (destination : FilePath)
deriving DecidableEq, Repr

namespace Strategy

/- Export if there is a destination, and update otherwise. -/
def select (destination : Option FilePath) : Strategy :=
  match destination with
  | some path => .exportTo path
  | none => .update

/- The name of a strategy. -/
def name : Strategy → String
| .update => "update"
| .exportTo _ => "export"

/- The directory below which units are written. -/
def root
    (s : Strategy)
    (base : FilePath) : FilePath :=
  match s with
  | .update => base
  | .exportTo destination => destination

/- The file that the previous text of a unit is read from. -/
def sourcePath
    (base relative : FilePath) : FilePath :=
  base.join relative

/- The file or directory that a unit is written to. -/
def destinationPath
    (s : Strategy)
    (base relative : FilePath) : FilePath :=
  (s.root base).join relative

/- How sections are written. -/
def style : Strategy → SectionStyle
| .update => .marked
| .exportTo _ => .inline

end Strategy

end Palimpsest
