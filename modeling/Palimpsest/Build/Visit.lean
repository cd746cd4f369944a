import Palimpsest.Build.Builder

/-
  This file defines how a visit to a model becomes callbacks.

  The parameters of an operation come first, then its result,
  then the operation itself.  A classifier is told about an
  association once for each end that refers to it, provided
  that the opposite end can be navigated to; that opposite end
  is the one the classifier owns.

  Key definitions include:
    * `Palimpsest.Visit`
    * `Palimpsest.Association.owned`
    * `Palimpsest.Visit.callbacks`
    * `Palimpsest.Visit.drive`
-/

namespace Palimpsest

------------------------------------------------------------
-- Visits
------------------------------------------------------------

/- The steps of the way through a model. -/
inductive Visit where
| package
    (package : Element)
| classifier
    (classifier : Element)
    (kind : ClassifierKind)
| property
    (property : Element)
| operation
    (operation : ModelOperation)
| association
    (classifier : Element)
    (association : Association)
| leave
    (classifier : Element)
deriving DecidableEq, Repr

/-
  The ends of an association that a classifier owns, each with
  the opposite end.
-/
def Association.owned
    (a : Association)
    (classifier : ElementId) :
    List (AssociationEnd × AssociationEnd) :=
  (if a.first.reference = classifier ∧
      a.second.isNavigable = true then
    [(a.second, a.first)]
  else
    []) ++
  (if a.second.reference = classifier ∧
      a.first.isNavigable = true then
    [(a.first, a.second)]
  else
    [])

namespace Visit

/- The callback for an end that a classifier owns. -/
def associationCallback
    (a : Association)
    (mine other : AssociationEnd) :
    Except BuildError Callback :=
  match Shape.classify mine other with
  | .ok shape => .ok (.association shape a mine other)
  | .error cause => .error (.noHandler cause)

/- The callbacks of a visit, in order. -/
def callbacks : Visit → List (Except BuildError Callback)
| .package p => [.ok (.module p)]
| .classifier c kind => [.ok (.classifier c kind)]
| .property p => [.ok (.property p)]
| .operation o =>
    o.parameters.map (fun p => .ok (.parameter p)) ++
      o.result.toList.map (fun p => .ok (.parameter p)) ++
      [.ok (.method o)]
| .association c a =>
    (a.owned c.id).map
      (fun ends => associationCallback a ends.1 ends.2)
| .leave c => [.ok (.leave c)]

variable {β : Type} [Builder β]

/- Hand callbacks to a builder, up to the first failure. -/
def driveAll :
    List (Except BuildError Callback) → β →
      Except BuildError Unit × β
| [], b => (.ok (), b)
| .error e :: _, b => (.error e, b)
| .ok c :: rest, b =>
    match Builder.receive c b with
    | (.error e, b) => (.error e, b)
    | (.ok (), b) => driveAll rest b

/- Drive a builder through a visit. -/
def drive
    (v : Visit)
    (b : β) : Except BuildError Unit × β :=
  driveAll v.callbacks b

end Visit

end Palimpsest
