import Palimpsest.Model.Element

/-
  This file defines the shapes of associations, seen from one
  of their ends.

  The shape tells how many objects stand on either side and
  whether the opposite end can be navigated to as well.

  Key definitions include:
    * `Palimpsest.Multiplicity`
    * `Palimpsest.Direction`
    * `Palimpsest.Shape`
    * `Palimpsest.Shape.classify`
    * `Palimpsest.Shape.display`
-/

namespace Palimpsest

------------------------------------------------------------
-- Shapes
------------------------------------------------------------

/- How many objects stand on the two sides. -/
inductive Multiplicity where
| oneToOne
| oneToMany
| manyToOne
| manyToMany
deriving DecidableEq, Repr

/- Whether the opposite end can be navigated to. -/
inductive Direction where
| bidirectional
| directed
deriving DecidableEq, Repr

/- The shape of an association, seen from one end. -/
structure Shape where
  multiplicity : Multiplicity
  direction : Direction
deriving DecidableEq, Repr

/- An end that no builder can handle. -/
structure NotNavigable where
  endName : String
deriving DecidableEq, Repr

/- The message for an end that no builder can handle. -/
def NotNavigable.message (error : NotNavigable) : String :=
  "no association handler for end `" ++ error.endName ++
    "`: end is not navigable"

namespace Multiplicity

/- The multiplicity, given which ends hold at most one object. -/
def ofEnds
    (otherSingle mineSingle : Bool) : Multiplicity :=
  match otherSingle, mineSingle with
  | true, true => .oneToOne
  | true, false => .oneToMany
  | false, true => .manyToOne
  | false, false => .manyToMany

/- The name of a multiplicity. -/
def name : Multiplicity → String
| .oneToOne => "one-to-one"
| .oneToMany => "one-to-many"
| .manyToOne => "many-to-one"
| .manyToMany => "many-to-many"

end Multiplicity

namespace Shape

/-
  The shape of an association seen from one end.  An end that
  cannot be navigated to has none.
-/
def classify
    (mine other : AssociationEnd) : Except NotNavigable Shape :=
  if mine.isNavigable then
    .ok {
      multiplicity :=
        Multiplicity.ofEnds other.isSingle mine.isSingle
      direction :=
        if other.isNavigable then .bidirectional
        else .directed }
  else
    .error ⟨mine.name⟩

/- The opposite end cannot be navigated to. -/
def IsDirected (s : Shape) : Prop :=
  s.direction = .directed

instance (s : Shape) : Decidable s.IsDirected := by
  unfold IsDirected
  infer_instance

/- The name of a shape. -/
def display (s : Shape) : String :=
  if s.IsDirected then
    s.multiplicity.name ++ " (directed)"
  else
    s.multiplicity.name

end Shape

end Palimpsest
