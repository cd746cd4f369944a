import Palimpsest.Build.Error
import Palimpsest.Model.Element

/-
  This file defines the builders that turn the elements of a
  model into fragments.

  A builder receives one callback after another and keeps a
  state of its own.  A composite hands every callback to its
  parts in order and stops at the first one that fails.

  Key definitions include:
    * `Palimpsest.Callback`
    * `Palimpsest.Callback.line`
    * `Palimpsest.Builder`
    * `Palimpsest.Composite`
    * `Palimpsest.Composite.receive`
-/

namespace Palimpsest

------------------------------------------------------------
-- Builders
------------------------------------------------------------

/- What builders are told about a model. -/
inductive Callback where
| module
    (package : Element)
| classifier
    (classifier : Element)
    (kind : ClassifierKind)
| property
    (property : Element)
| parameter
    (parameter : String)
| method
    (operation : ModelOperation)
| association
    (shape : Shape)
    (association : Association)
    (mine other : AssociationEnd)
| leave
    (classifier : Element)
deriving DecidableEq, Repr

/- A callback in one line. -/
def Callback.line : Callback → String
| .module p => "module " ++ p.name
| .classifier c kind => kind.name ++ " " ++ c.name
| .property p => "attribute " ++ p.name
| .parameter p => "param " ++ p
| .method o => "method " ++ o.element.name
| .association shape a mine other =>
    "association " ++ a.element.name ++ " my=" ++ mine.name ++
      " other=" ++ other.name ++ " " ++ shape.display
| .leave c => "leave " ++ c.name

/-
  A state that takes callbacks.  A callback that fails changes
  the state as well.
-/
class Builder (β : Type) where
  receive : Callback → β → Except BuildError Unit × β

------------------------------------------------------------
-- Composites
------------------------------------------------------------

/- A single builder, or several in the order of registration. -/
inductive Composite (β : Type) where
| single
    (builder : β)
| several
    (parts : List (Composite β))

namespace Composite

variable {β : Type}

/- The composite without parts. -/
def empty : Composite β :=
  .several []

/- The registered parts. -/
def parts : Composite β → List (Composite β)
| .single b => [.single b]
| .several parts => parts

/- Register one more part after the others. -/
def add
    (c part : Composite β) : Composite β :=
  .several (c.parts ++ [part])

mutual

/- All single builders, in the order of registration. -/
def builders : Composite β → List β
| .single b => [b]
| .several parts => buildersOf parts

/- All single builders of some parts. -/
def buildersOf : List (Composite β) → List β
| [] => []
| part :: rest => builders part ++ buildersOf rest

end

variable [Builder β]

mutual

/- Hand a callback to a single builder or to all parts. -/
def receive
    (c : Callback) :
    Composite β → Except BuildError Unit × Composite β
| .single b =>
    match Builder.receive c b with
    | (answer, b) => (answer, .single b)
| .several parts =>
    match receiveAll c parts with
    | (answer, parts) => (answer, .several parts)

/- Hand a callback to parts, up to the first that fails. -/
def receiveAll
    (c : Callback) :
    List (Composite β) →
      Except BuildError Unit × List (Composite β)
| [] => (.ok (), [])
| part :: rest =>
    match receive c part with
    | (.error e, part) => (.error e, part :: rest)
    | (.ok (), part) =>
        match receiveAll c rest with
        | (answer, rest) => (answer, part :: rest)

end

instance : Builder (Composite β) :=
  ⟨receive⟩

end Composite

end Palimpsest
