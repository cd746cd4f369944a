import Palimpsest.Fragment.Kind
import Palimpsest.Section.Id

/-
  This file defines the faults that operations on fragments
  report.

  Key definitions include:
    * `Palimpsest.Operation`
    * `Palimpsest.FragmentError`
    * `Palimpsest.FragmentError.message`
-/

namespace Palimpsest

------------------------------------------------------------
-- Operations
------------------------------------------------------------

/- The operations that some kinds of fragments do not support. -/
inductive Operation where
| add
| unshift
| append
| serialize
| serializeModule
| serializeClassifier
| serializeTemplate
deriving DecidableEq, Repr

/- The name of an operation in messages. -/
def Operation.name : Operation → String
| .add => "add"
| .unshift => "unshift"
| .append => "append"
| .serialize => "serialize"
| .serializeModule => "serialize_module"
| .serializeClassifier => "serialize_classifier"
| .serializeTemplate => "serialize_template"

------------------------------------------------------------
-- Faults
------------------------------------------------------------

/- The faults of operations on fragments. -/
inductive FragmentError where
| invalidSectionId (cause : InvalidSectionId)
| unsupportedChild
    (container child : Kind)
    (role : Role)
| unsupportedOperation (operation : Operation) (kind : Kind)
| duplicateSectionId (id : SectionId)
| missingQualifiedName (fragment : String)
deriving DecidableEq

/- The message for a fault. -/
def FragmentError.message : FragmentError → String
| .invalidSectionId cause => cause.message
| .unsupportedChild container child role =>
    container.name ++ " fragment cannot hold a " ++
      child.name ++ " fragment with role " ++ role.name
| .unsupportedOperation operation kind =>
    "unsupported " ++ operation.name ++ " operation on " ++
      kind.name ++ " fragment"
| .duplicateSectionId id =>
    "duplicate preserve section id in fragment tree: " ++
      id.text
| .missingQualifiedName fragment =>
    "fragment '" ++ fragment ++ "' has no qualified name"

end Palimpsest
