import Palimpsest.Build.Error
import Palimpsest.Fragment.Edit

/-
  This file defines sample fragments: small ready-made
  classifiers, modules and templates in the shape that
  producers build them.

  Every member has a section whose id is made from its role,
  its class and its name.  Making a sample takes fresh ids.

  Key definitions include:
    * `Palimpsest.Sample.Making`
    * `Palimpsest.Sample.field`
    * `Palimpsest.Sample.method`
    * `Palimpsest.Sample.classifier`
    * `Palimpsest.Sample.module`
    * `Palimpsest.Sample.moduleWithPackage`
    * `Palimpsest.Sample.template`
-/

namespace Palimpsest

namespace Sample

------------------------------------------------------------
-- Making Fragments
------------------------------------------------------------

/- What takes fresh ids, and may fail. -/
abbrev Making (α : Type) :=
  StateT Nat (Except BuildError) α

/- The next fresh id. -/
def fresh : Making FragmentId :=
  fun n => .ok (⟨n⟩, n + 1)

/- A new fragment with a fresh id. -/
def make
    (kind : Kind)
    (name : String)
    (role : Role) : Making Fragment := do
  return Fragment.create (← fresh) kind name role

/- A section id, or the fault of its text. -/
def sectionId
    (role : String)
    (element : ElementId) : Making SectionId :=
  match SectionId.ofElement role element with
  | .ok id => pure id
  | .error cause => throw (.fragment (.invalidSectionId cause))

/- The section id for a member of a class. -/
def memberId
    (role className member : String) : Making SectionId :=
  sectionId role ⟨className ++ "." ++ member⟩

/- A qualified name, or the fault of its text. -/
def qualifiedName (text : String) : Making QualifiedName :=
  match QualifiedName.parse text with
  | .ok name => pure name
  | .error cause => throw (.name cause)

/- The last segment of a qualified name. -/
def simpleName (name : QualifiedName) : String :=
  name.last?.getD ""

/- Apply a change that fits the kind of a fragment. -/
def apply
    (change : Fragment → Option Fragment)
    (f : Fragment) : Fragment :=
  (change f).getD f

/- Add a child, or the fault of adding it. -/
def addChild
    (child f : Fragment) : Making Fragment :=
  match f.add child with
  | .ok f => pure f
  | .error cause => throw (.fragment cause)

------------------------------------------------------------
-- Members
------------------------------------------------------------

/- A private field with a section after it. -/
def field (className name type : String) : Making Fragment := do
  let f ← make .simple name .field
  let after ← memberId "field.after" className name
  let text := "private " ++ type ++ " " ++ name ++ ";"
  return (apply (Fragment.assign? text) f).modifyInfo
    (Info.addAfter after)

/- A public method with a section for its body. -/
def method
    (className name : String)
    (role : Role) : Making Fragment := do
  let f ← make .method name role
  let body ← memberId "method.body" className name
  let signature := "public void " ++ name ++ "()"
  return apply (Fragment.createBody? body)
    (apply (Fragment.setSignature? signature) f)

------------------------------------------------------------
-- Units
------------------------------------------------------------

/- The line that says which package a class is in. -/
def packageLine (name : QualifiedName) : String :=
  match name.parent? with
  | some package => "package " ++ package.dotted ++ ";"
  | none => "// default package"

/- A class without members. -/
def bareClassifier (name : QualifiedName) : Making Fragment := do
  let simple := simpleName name
  let f ← make .classifier simple .classifier
  let header ← make .simple "header" .other
  let header :=
    apply (Fragment.assign? (packageLine name)) header
  let extras ← memberId "class.extras" simple "body"
  let imports ← memberId "class.imports" simple "head"
  let f := apply (Fragment.setHeader? header) f
  let f :=
    apply (Fragment.declare? ("public class " ++ simple)) f
  let f := apply (Fragment.createExtras? extras) f
  return f.modifyInfo (Info.addBefore imports)

/- Add members one after another. -/
def addMembers
    (make : String → Making Fragment) :
    List String → Fragment → Making Fragment
| [], f => pure f
| name :: rest, f => do
    addMembers make rest (← addChild (← make name) f)

/-
  A class with a header, text fields, methods, and a section
  for extras.
-/
def classifier
    (qualified : String)
    (fields methods : List String) : Making Fragment := do
  let name ← qualifiedName qualified
  let simple := simpleName name
  let f ← bareClassifier name
  let f ← addMembers
    (fun member => field simple member "String") fields f
  let f ← addMembers
    (fun member => method simple member .method) methods f
  return f.modifyInfo (Info.qualify name)

/- Add children one after another. -/
def addChildren :
    List Fragment → Fragment → Making Fragment
| [], f => pure f
| child :: rest, f => do addChildren rest (← addChild child f)

/- A module with children. -/
def module
    (qualified : String)
    (children : List Fragment) : Making Fragment := do
  let name ← qualifiedName qualified
  let f ← make .module (simpleName name) .module
  let f ← addChildren children f
  return f.modifyInfo (Info.qualify name)

/- A module with children and a package file. -/
def moduleWithPackage
    (qualified : String)
    (children : List Fragment) : Making Fragment := do
  let f ← module qualified children
  let package ← make .simple "package-info" .other
  let text := "package " ++ qualified ++ ";"
  let doc ← memberId "package.doc" qualified "info"
  let package :=
    (apply (Fragment.assign? text) package).modifyInfo
      (Info.addBefore doc)
  return apply (Fragment.setPackage? package) f

/- A template with a source. -/
def template (qualified source : String) : Making Fragment := do
  let name ← qualifiedName qualified
  let f ← make .template (simpleName name) .classifier
  let f := apply (Fragment.setSource? source) f
  return f.modifyInfo (Info.qualify name)

end Sample

end Palimpsest
