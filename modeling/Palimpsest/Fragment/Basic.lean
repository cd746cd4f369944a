import Palimpsest.Fragment.Error
import Palimpsest.Name
import Palimpsest.Section.Basic

/-
  This file defines fragments: the trees from which generated
  texts are written.

  Every fragment carries an id, a name, a role, and what is
  written around it.  Modules, classifiers and groups have
  parts that are fragments again.  The members of a classifier
  are kept in the order of their compartments.

  Key definitions include:
    * `Palimpsest.FragmentId`
    * `Palimpsest.Info`
    * `Palimpsest.Fragment`
    * `Palimpsest.Fragment.create`
    * `Palimpsest.Fragment.kind`
    * `Palimpsest.Fragment.info`
    * `Palimpsest.Fragment.modifyInfo`
    * `Palimpsest.Fragment.requireQualifiedName`
-/

namespace Palimpsest

------------------------------------------------------------
-- What Every Fragment Carries
------------------------------------------------------------

/- The identity of a fragment in one generation pass. -/
structure FragmentId where
  number : Nat
deriving DecidableEq, Repr

/-
  What every fragment carries: who it is, and the texts and
  sections that are written around it.
-/
structure Info where
  id : FragmentId
  name : String
  role : Role
  documentation : Option String
  annotations : List String
  before : List Section
  after : List Section
  qualifiedName : Option QualifiedName
  element : Option ElementId
deriving DecidableEq

namespace Info

/- The info of a new fragment. -/
def new
    (id : FragmentId)
    (name : String)
    (role : Role) : Info where
  id := id
  name := name
  role := role
  documentation := none
  annotations := []
  before := []
  after := []
  qualifiedName := none
  element := none

/- Set the documentation. -/
def document
    (text : String)
    (i : Info) : Info :=
  { i with documentation := some text }

/- Add an annotation after the present ones. -/
def annotate
    (text : String)
    (i : Info) : Info :=
  { i with annotations := i.annotations ++ [text] }

/- Add an empty section before the fragment. -/
def addBefore
    (id : SectionId)
    (i : Info) : Info :=
  { i with before := i.before ++ [Section.empty id] }

/- Add an empty section after the fragment. -/
def addAfter
    (id : SectionId)
    (i : Info) : Info :=
  { i with after := i.after ++ [Section.empty id] }

/- Set the qualified name. -/
def qualify
    (name : QualifiedName)
    (i : Info) : Info :=
  { i with qualifiedName := some name }

/- Set the element. -/
def represent
    (element : ElementId)
    (i : Info) : Info :=
  { i with element := some element }

/- The sections around a fragment. -/
def sections (i : Info) : List Section :=
  i.before ++ i.after

/- Change each section around a fragment. -/
def mapSections
    (change : Section → Section)
    (i : Info) : Info :=
  { i with
    before := i.before.map change
    after := i.after.map change }

end Info

------------------------------------------------------------
-- Fragments
------------------------------------------------------------

/-
  A fragment of generated text.

  A module holds the units of a package and, if it has one,
  the fragment written to the package's own file.  A
  classifier has a header, imports, a declaration, members and
  a section for extras.  A group holds fragments in order.  A
  method has a signature and, unless it has no body, a section
  for it.  A simple fragment is a text; a template is a text
  that is written once and never again.
-/
inductive Fragment where
| module
    (info : Info)
    (package : Option Fragment)
    (children : List Fragment)
| classifier
    (info : Info)
    (header imports : Option Fragment)
    (declaration : String)
    (members : List Fragment)
    (extras : Option Section)
| group
    (info : Info)
    (children : List Fragment)
| method
    (info : Info)
    (signature : String)
    (isAbstract : Bool)
    (body : Option Section)
| simple
    (info : Info)
    (text : String)
| template
    (info : Info)
    (source : String)

namespace Fragment

/- A new fragment of a kind, without any text or parts. -/
def create
    (id : FragmentId)
    (kind : Kind)
    (name : String)
    (role : Role) : Fragment :=
  match kind with
  | .module => .module (Info.new id name .module) none []
  | .classifier =>
      .classifier (Info.new id name .classifier)
        none none "" [] none
  | .group => .group (Info.new id name role) []
  | .method => .method (Info.new id name role) "" false none
  | .simple => .simple (Info.new id name role) ""
  | .template =>
      .template (Info.new id name .classifier) ""

/- The kind of a fragment. -/
def kind : Fragment → Kind
| .module _ _ _ => .module
| .classifier _ _ _ _ _ _ => .classifier
| .group _ _ => .group
| .method _ _ _ _ => .method
| .simple _ _ => .simple
| .template _ _ => .template

/- What a fragment carries. -/
def info : Fragment → Info
| .module i _ _ => i
| .classifier i _ _ _ _ _ => i
| .group i _ => i
| .method i _ _ _ => i
| .simple i _ => i
| .template i _ => i

/- Change what a fragment carries. -/
def modifyInfo (change : Info → Info) : Fragment → Fragment
| .module i p cs => .module (change i) p cs
| .classifier i h m d ms x => .classifier (change i) h m d ms x
| .group i cs => .group (change i) cs
| .method i s a b => .method (change i) s a b
| .simple i t => .simple (change i) t
| .template i s => .template (change i) s

/- The id of a fragment. -/
def id (f : Fragment) : FragmentId :=
  f.info.id

/- The name of a fragment. -/
def name (f : Fragment) : String :=
  f.info.name

/- The role of a fragment. -/
def role (f : Fragment) : Role :=
  f.info.role

/- The qualified name of a fragment that must have one. -/
def requireQualifiedName
    (f : Fragment) : Except FragmentError QualifiedName :=
  match f.info.qualifiedName with
  | some name => .ok name
  | none => .error (.missingQualifiedName f.name)

/-
  The name of a fragment in a report: its qualified name, or
  its own name if it has none.
-/
def unitName (f : Fragment) : String :=
  match f.info.qualifiedName with
  | some name => name.dotted
  | none => f.name

/- Changing the info leaves the kind. -/
@[simp]
theorem kind_modifyInfo
    (change : Info → Info)
    (f : Fragment) :
    (f.modifyInfo change).kind = f.kind := by
  cases f <;> rfl

/- The info after a change. -/
@[simp]
theorem info_modifyInfo
    (change : Info → Info)
    (f : Fragment) :
    (f.modifyInfo change).info = change f.info := by
  cases f <;> rfl

end Fragment

end Palimpsest
