/-
  This file defines the kinds and roles of fragments and the
  compartments of a classifier body.

  The kind of a fragment says how it is written; its role says
  what it is for.  The role of a member decides in which
  compartment of its classifier it is kept.

  Key definitions include:
    * `Palimpsest.Kind`
    * `Palimpsest.Kind.name`
    * `Palimpsest.Kind.IsTopLevel`
    * `Palimpsest.Role`
    * `Palimpsest.Role.key`
    * `Palimpsest.Role.name`
    * `Palimpsest.Compartment`
    * `Palimpsest.Compartment.ofRole?`
    * `Palimpsest.Compartment.index`
-/

namespace Palimpsest

------------------------------------------------------------
-- Kinds
------------------------------------------------------------

/- The kinds of fragments. -/
inductive Kind where
| module
| classifier
| group
| method
| simple
| template
deriving DecidableEq, Repr

namespace Kind

/- All kinds. -/
def all : List Kind :=
  [.module, .classifier, .group, .method, .simple, .template]

/- The name of a kind, in messages and in data. -/
def name : Kind → String
| .module => "module"
| .classifier => "classifier"
| .group => "section"
| .method => "method"
| .simple => "simple"
| .template => "template"

/- The kind with the given name. -/
def ofName? (name : String) : Option Kind :=
  all.find? (fun kind => kind.name = name)

/- A kind that is stored as a unit of its own. -/
def IsTopLevel (kind : Kind) : Prop :=
  kind = .module ∨ kind = .classifier ∨ kind = .template

instance (kind : Kind) : Decidable kind.IsTopLevel := by
  unfold IsTopLevel
  infer_instance

end Kind

------------------------------------------------------------
-- Roles
------------------------------------------------------------

/- What a fragment is for. -/
inductive Role where
| module
| classifier
| enumLiteral
| field
| getter
| setter
| associationLink
| associationUnlink
| method
| constructor
| supportingMethod
| other
deriving DecidableEq, Repr

namespace Role

/- All roles. -/
def all : List Role :=
  [.module, .classifier, .enumLiteral, .field, .getter,
   .setter, .associationLink, .associationUnlink, .method,
   .constructor, .supportingMethod, .other]

/- The name of a role in messages. -/
def name : Role → String
| .module => "module"
| .classifier => "classifier"
| .enumLiteral => "literal"
| .field => "field"
| .getter => "getter"
| .setter => "setter"
| .associationLink => "association_link"
| .associationUnlink => "association_unlink"
| .method => "method"
| .constructor => "constructor"
| .supportingMethod => "supporting_method"
| .other => "other"

/- The name of a role in data. -/
def key : Role → String
| .enumLiteral => "enum_literal"
| role => role.name

/- The role with the given name in data. -/
def ofKey? (key : String) : Option Role :=
  all.find? (fun role => role.key = key)

end Role

------------------------------------------------------------
-- Compartments
------------------------------------------------------------

/- The compartments of a classifier body. -/
inductive Compartment where
| literals
| fields
| getters
| setters
| links
| unlinks
| supportingMethods
| methods
| constructors
deriving DecidableEq, Repr

namespace Compartment

/- All compartments, in the order in which they are written. -/
def all : List Compartment :=
  [.literals, .fields, .getters, .setters, .links, .unlinks,
   .supportingMethods, .methods, .constructors]

/- The place of a compartment in that order. -/
def index : Compartment → Nat
| .literals => 0
| .fields => 1
| .getters => 2
| .setters => 3
| .links => 4
| .unlinks => 5
| .supportingMethods => 6
| .methods => 7
| .constructors => 8

/- The name of a compartment. -/
def label : Compartment → String
| .literals => "literals"
| .fields => "fields"
| .getters => "getters"
| .setters => "setters"
| .links => "association_links"
| .unlinks => "association_unlinks"
| .supportingMethods => "supporting_methods"
| .methods => "methods"
| .constructors => "constructors"

/- The compartment for members with a role, if there is one. -/
def ofRole? : Role → Option Compartment
| .enumLiteral => some .literals
| .field => some .fields
| .getter => some .getters
| .setter => some .setters
| .associationLink => some .links
| .associationUnlink => some .unlinks
| .supportingMethod => some .supportingMethods
| .method => some .methods
| .constructor => some .constructors
| .module => none
| .classifier => none
| .other => none

end Compartment

end Palimpsest
