import Palimpsest.Table

/-
  This file defines the mapping from the types of the model to
  the types of the generated texts.

  A type that is not registered is mapped to itself.

  Key definitions include:
    * `Palimpsest.TypeMapping`
    * `Palimpsest.TypeMapping.register`
    * `Palimpsest.TypeMapping.map`
-/

namespace Palimpsest

------------------------------------------------------------
-- Type Mappings
------------------------------------------------------------

/- The types that are mapped to others. -/
structure TypeMapping where
  table : Table String String

namespace TypeMapping

/- The mapping that maps every type to itself. -/
def empty : TypeMapping :=
  ⟨Table.empty⟩

/- Map a type to another, in place of any before. -/
def register
    (m : TypeMapping)
    (modelType targetType : String) : TypeMapping :=
  ⟨m.table.insert modelType targetType⟩

/- Register pairs of types one after another. -/
def registerAll
    (m : TypeMapping)
    (pairs : List (String × String)) : TypeMapping :=
  ⟨m.table.insertAll pairs⟩

/- The type that a type is mapped to. -/
def map
    (m : TypeMapping)
    (modelType : String) : String :=
  (m.table.find? modelType).getD modelType

/- The registered pairs, in the order of registration. -/
def pairs (m : TypeMapping) : List (String × String) :=
  m.table.pairs

end TypeMapping

end Palimpsest
