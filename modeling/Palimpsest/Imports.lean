import Palimpsest.Fragment.Edit

/-
  This file defines how the imports of a classifier are
  collected.

  A name is imported once, unless it is in the package of the
  classifier itself or in a package that is always visible.

  Key definitions include:
    * `Palimpsest.Imports`
    * `Palimpsest.Imports.reset`
    * `Palimpsest.Imports.IsImplicit`
    * `Palimpsest.Imports.answer`
    * `Palimpsest.Imports.resolve`
    * `Palimpsest.Imports.giveTo?`
-/

namespace Palimpsest

------------------------------------------------------------
-- Collecting Imports
------------------------------------------------------------

/- The package of a classifier and the names it imports. -/
structure Imports where
  package : Option QualifiedName
  names : List QualifiedName
deriving DecidableEq, Repr

namespace Imports

/- The packages that are always visible. -/
def implicitPackages : List String :=
  ["java.lang"]

/- No package and no names. -/
def empty : Imports :=
  ⟨none, []⟩

/- Start over with the package of another classifier. -/
def reset
    (package : Option QualifiedName)
    (_imports : Imports) : Imports :=
  ⟨package, []⟩

/- A name that is visible without an import. -/
def IsImplicit
    (package : Option QualifiedName)
    (name : QualifiedName) : Prop :=
  match name.parent? with
  | none => False
  | some enclosing =>
      package = some enclosing ∨
        enclosing.dotted ∈ implicitPackages

instance
    (package : Option QualifiedName)
    (name : QualifiedName) :
    Decidable (IsImplicit package name) := by
  unfold IsImplicit
  split <;> infer_instance

/- Whether a name has to be added. -/
def IsNew
    (imports : Imports)
    (name : QualifiedName) : Prop :=
  ¬ IsImplicit imports.package name ∧ name ∉ imports.names

instance
    (imports : Imports)
    (name : QualifiedName) :
    Decidable (imports.IsNew name) := by
  unfold IsNew
  infer_instance

/- Whether resolving a name gives a new import. -/
def answer
    (imports : Imports)
    (name : QualifiedName) : Bool :=
  decide (imports.IsNew name)

/- Import a name if it has to be added. -/
def resolve
    (name : QualifiedName)
    (imports : Imports) : Imports :=
  if imports.IsNew name then
    { imports with names := imports.names ++ [name] }
  else
    imports

------------------------------------------------------------
-- Writing Imports
------------------------------------------------------------

/- The line that imports a name. -/
def line (name : QualifiedName) : String :=
  "import " ++ name.dotted ++ ";"

/- The lines for all names. -/
def text (imports : Imports) : String :=
  Text.unlines (imports.names.map line)

/- The fragment for all names. -/
def block
    (fresh : FragmentId)
    (imports : Imports) : Fragment :=
  .simple (Info.new fresh "imports" .other) imports.text

/-
  Give a classifier its imports.  Without names it is left
  alone.
-/
def giveTo?
    (fresh : FragmentId)
    (imports : Imports)
    (f : Fragment) : Option Fragment :=
  if f.kind = .classifier then
    if imports.names = [] then
      some f
    else
      Fragment.setImports? (imports.block fresh) f
  else
    none

end Imports

end Palimpsest
