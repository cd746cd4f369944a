import Palimpsest.Fragment.Basic
import Palimpsest.Table

/-
  This file defines the links from model elements to the
  fragments that render them.

  A fragment remembers its element; the link table remembers
  the other direction.  Linking an element again moves its
  link to the new fragment.

  Key definitions include:
    * `Palimpsest.LinkTable`
    * `Palimpsest.LinkTable.link`
    * `Palimpsest.LinkTable.unlink`
    * `Palimpsest.LinkTable.fragmentOf?`
    * `Palimpsest.LinkTable.IsCurrent`
    * `Palimpsest.Fragment.link`
-/

namespace Palimpsest

------------------------------------------------------------
-- The Link Table
------------------------------------------------------------

/- The fragment that renders each linked element. -/
structure LinkTable where
  table : Table ElementId FragmentId

namespace LinkTable

/- The table without links. -/
def empty : LinkTable :=
  ⟨Table.empty⟩

/- The fragment linked to an element. -/
def fragmentOf?
    (links : LinkTable)
    (element : ElementId) : Option FragmentId :=
  links.table.find? element

/- Link an element to a fragment, in place of any before. -/
def link
    (links : LinkTable)
    (element : ElementId)
    (fragment : FragmentId) : LinkTable :=
  ⟨links.table.insert element fragment⟩

/- Take away the link of an element. -/
def unlink
    (links : LinkTable)
    (element : ElementId) : LinkTable :=
  ⟨links.table.erase element⟩

/- The element is linked to this fragment. -/
def IsCurrent
    (links : LinkTable)
    (element : ElementId)
    (fragment : FragmentId) : Prop :=
  links.fragmentOf? element = some fragment

instance
    (links : LinkTable)
    (element : ElementId)
    (fragment : FragmentId) :
    Decidable (links.IsCurrent element fragment) := by
  unfold IsCurrent
  infer_instance

/- The number of linked elements. -/
def size (links : LinkTable) : Nat :=
  links.table.size

end LinkTable

------------------------------------------------------------
-- Linking Fragments
------------------------------------------------------------

/- What linking a fragment gives. -/
structure Linked where
  fragment : Fragment
  links : LinkTable
  previous : Option FragmentId

/-
  Link a fragment to an element.  The previous fragment is the
  other one that loses the element, if there is one.
-/
def Fragment.link
    (element : ElementId)
    (links : LinkTable)
    (f : Fragment) : Linked where
  fragment := f.modifyInfo (Info.represent element)
  links := links.link element f.id
  previous := (links.fragmentOf? element).filter
    (fun previous => decide (previous ≠ f.id))

end Palimpsest
