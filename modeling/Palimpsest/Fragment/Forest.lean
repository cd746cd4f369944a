import Palimpsest.Fragment.Find

/-
  This file defines forests: labelled fragment trees under
  construction.

  Trees are searched one after another, oldest first.

  Key definitions include:
    * `Palimpsest.Forest`
    * `Palimpsest.Forest.add`
    * `Palimpsest.Forest.take?`
    * `Palimpsest.Forest.find?`
    * `Palimpsest.Forest.replace`
-/

namespace Palimpsest

------------------------------------------------------------
-- Forests
------------------------------------------------------------

/- Labelled trees, oldest first. -/
structure Forest where
  roots : List (String × Fragment)

namespace Forest

/- The forest without trees. -/
def empty : Forest :=
  ⟨[]⟩

/- The labels of the trees. -/
def labels (s : Forest) : List String :=
  s.roots.map Prod.fst

/- Add a tree after the others. -/
def add
    (label : String)
    (f : Fragment)
    (s : Forest) : Forest :=
  ⟨s.roots ++ [(label, f)]⟩

/- Take out the first tree with a label. -/
def take?
    (label : String)
    (s : Forest) : Option (Fragment × Forest) :=
  match s.roots.span (fun root => decide (root.1 ≠ label)) with
  | (_, []) => none
  | (before, root :: after) =>
      some (root.2, ⟨before ++ after⟩)

/- The first fragment with an id, in any tree. -/
def find?
    (id : FragmentId)
    (s : Forest) : Option Fragment :=
  s.roots.findSome? (fun root => root.2.find? id)

/- Replace the first fragment with an id in a list of trees. -/
def replaceIn
    (id : FragmentId)
    (changed : Fragment) :
    List (String × Fragment) → List (String × Fragment)
| [] => []
| (label, f) :: rest =>
    match f.update? id (fun _ => changed) with
    | some f => (label, f) :: rest
    | none => (label, f) :: replaceIn id changed rest

/- Replace the first fragment with an id. -/
def replace
    (id : FragmentId)
    (changed : Fragment)
    (s : Forest) : Forest :=
  ⟨replaceIn id changed s.roots⟩

end Forest

end Palimpsest
