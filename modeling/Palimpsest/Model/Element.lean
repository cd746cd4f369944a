import Palimpsest.Section.Id

/-
  This file defines the elements of a model that texts are
  generated from.

  Key definitions include:
    * `Palimpsest.Element`
    * `Palimpsest.ClassifierKind`
    * `Palimpsest.ModelOperation`
    * `Palimpsest.AssociationEnd`
    * `Palimpsest.Association`
-/

namespace Palimpsest

------------------------------------------------------------
-- Named Elements
------------------------------------------------------------

/- An element with an identity and a name. -/
structure Element where
  id : ElementId
  name : String
deriving DecidableEq, Repr

/-
  The kinds of classifiers: classes of the ordinary kind,
  interfaces and enumerations.
-/
inductive ClassifierKind where
| ordinary
| interface
| enumeration
deriving DecidableEq, Repr

/- The name of a kind of classifier. -/
def ClassifierKind.name : ClassifierKind → String
| .ordinary => "class"
| .interface => "interface"
| .enumeration => "enumeration"

/- An operation with its parameters and its result. -/
structure ModelOperation where
  element : Element
  parameters : List String
  result : Option String
deriving DecidableEq, Repr

------------------------------------------------------------
-- Associations
------------------------------------------------------------

/-
  One end of an association: whether it can be navigated to,
  whether it holds at most one object, and the classifier that
  it refers to.
-/
structure AssociationEnd where
  name : String
  isNavigable : Bool
  isSingle : Bool
  reference : ElementId
deriving DecidableEq, Repr

/- An association between two ends. -/
structure Association where
  element : Element
  first : AssociationEnd
  second : AssociationEnd
deriving DecidableEq, Repr

end Palimpsest
