import Palimpsest.Digest.Checksum
import Palimpsest.Name
import Palimpsest.Section.Id

/-
  This file defines the order of names, ids and checksums.

  Texts are ordered by the code points of their characters,
  names by their segments, and checksums by their bytes; what
  is a beginning of something else stands before it.

  Key definitions include:
    * `Palimpsest.Order.sortedBy`
    * `Palimpsest.Order.names`
    * `Palimpsest.Order.sectionIds`
    * `Palimpsest.Order.elementIds`
    * `Palimpsest.Order.checksums`
-/

namespace Palimpsest

namespace Order

------------------------------------------------------------
-- Sorting
------------------------------------------------------------

/- Drop what equals its neighbour before it. -/
def dropRepeats
    {α : Type}
    [DecidableEq α] : List α → List α
| [] => []
| [a] => [a]
| a :: b :: rest =>
    if a = b then
      dropRepeats (b :: rest)
    else
      a :: dropRepeats (b :: rest)

/- Put items in the order of their keys, each once. -/
def sortedBy
    {α κ : Type}
    [DecidableEq α]
    [LT κ]
    [DecidableLT κ]
    (key : α → κ)
    (items : List α) : List α :=
  dropRepeats
    (items.mergeSort
      (fun first second => decide (¬ key second < key first)))

------------------------------------------------------------
-- What Is Sorted
------------------------------------------------------------

/- Names, by their segments. -/
def names (items : List QualifiedName) : List QualifiedName :=
  sortedBy QualifiedName.segments items

/- Section ids, by their texts. -/
def sectionIds (items : List SectionId) : List SectionId :=
  sortedBy SectionId.text items

/- Element ids, by their texts. -/
def elementIds (items : List ElementId) : List ElementId :=
  sortedBy ElementId.text items

/- Checksums, by their bytes. -/
def checksums (items : List Checksum) : List Checksum :=
  sortedBy Checksum.bytes items

end Order

end Palimpsest
