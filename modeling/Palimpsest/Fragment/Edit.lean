import Palimpsest.Fragment.Basic

/-
  This file defines how fragments are built up.

  A child is added after the present children or put before
  them.  A module takes units only; a classifier takes members
  whose role has a compartment and keeps them in the order of
  the compartments; a group takes every fragment.

  Members are filed by the roles that they have when another
  member comes.  So a member that was replaced, in its place,
  by one with another role does not keep its old compartment
  then.

  The changes that concern one kind of fragment give nothing
  for the other kinds.

  Key definitions include:
    * `Palimpsest.Fragment.rank`
    * `Palimpsest.Fragment.insertLast`
    * `Palimpsest.Fragment.insertFirst`
    * `Palimpsest.Fragment.add`
    * `Palimpsest.Fragment.unshift`
    * `Palimpsest.Fragment.addStandardImport?`
-/

namespace Palimpsest

namespace Fragment

------------------------------------------------------------
-- Members In The Order Of Their Compartments
------------------------------------------------------------

/- The compartment that a fragment belongs to as a member. -/
def compartment? (f : Fragment) : Option Compartment :=
  Compartment.ofRole? f.role

/- The place of a fragment among the compartments. -/
def rank (f : Fragment) : Nat :=
  match f.compartment? with
  | some c => c.index
  | none => Compartment.all.length

/- Put a member at the end of its compartment. -/
def insertLast
    (member : Fragment)
    (members : List Fragment) : List Fragment :=
  members.takeWhile (fun m => m.rank ≤ member.rank) ++
    member ::
      members.dropWhile (fun m => m.rank ≤ member.rank)

/- Put a member at the start of its compartment. -/
def insertFirst
    (member : Fragment)
    (members : List Fragment) : List Fragment :=
  members.takeWhile (fun m => m.rank < member.rank) ++
    member ::
      members.dropWhile (fun m => m.rank < member.rank)

/- The members in one compartment. -/
def membersIn
    (c : Compartment)
    (members : List Fragment) : List Fragment :=
  members.filter (fun m => m.compartment? = some c)

------------------------------------------------------------
-- Children
------------------------------------------------------------

/- The fault of a child that a container cannot hold. -/
def refuse
    (container : Kind)
    (child : Fragment) : FragmentError :=
  .unsupportedChild container child.kind child.role

/- Add a child after the present ones. -/
def add
    (f child : Fragment) : Except FragmentError Fragment :=
  match f with
  | .module i p cs =>
      if child.kind.IsTopLevel then
        .ok (.module i p (cs ++ [child]))
      else
        .error (refuse .module child)
  | .classifier i h m d ms x =>
      match child.compartment? with
      | some _ =>
          .ok (.classifier i h m d (insertLast child ms) x)
      | none => .error (refuse .classifier child)
  | .group i cs => .ok (.group i (cs ++ [child]))
  | .method _ _ _ _ =>
      .error (.unsupportedOperation .add .method)
  | .simple _ _ =>
      .error (.unsupportedOperation .add .simple)
  | .template _ _ =>
      .error (.unsupportedOperation .add .template)

/- Put a child before the present ones. -/
def unshift
    (f child : Fragment) : Except FragmentError Fragment :=
  match f with
  | .module _ _ _ =>
      .error (.unsupportedOperation .unshift .module)
  | .classifier i h m d ms x =>
      match child.compartment? with
      | some _ =>
          .ok (.classifier i h m d (insertFirst child ms) x)
      | none => .error (refuse .classifier child)
  | .group i cs => .ok (.group i (child :: cs))
  | .method _ _ _ _ =>
      .error (.unsupportedOperation .unshift .method)
  | .simple _ _ =>
      .error (.unsupportedOperation .unshift .simple)
  | .template _ _ =>
      .error (.unsupportedOperation .unshift .template)

------------------------------------------------------------
-- Simple Fragments And Templates
------------------------------------------------------------

/- Set the text of a simple fragment. -/
def assign? (text : String) : Fragment → Option Fragment
| .simple i _ => some (.simple i text)
| _ => none

/- Add a line to the text of a simple fragment. -/
def append? (line : String) : Fragment → Option Fragment
| .simple i text => some (.simple i (text ++ "\n" ++ line))
| _ => none

/- Set the source of a template. -/
def setSource? (source : String) : Fragment → Option Fragment
| .template i _ => some (.template i source)
| _ => none

------------------------------------------------------------
-- Methods
------------------------------------------------------------

/- Set the signature of a method. -/
def setSignature?
    (signature : String) : Fragment → Option Fragment
| .method i _ a b => some (.method i signature a b)
| _ => none

/- Say whether a method is abstract. -/
def setAbstract?
    (isAbstract : Bool) : Fragment → Option Fragment
| .method i s _ b => some (.method i s isAbstract b)
| _ => none

/- Give a method an empty body section. -/
def createBody? (id : SectionId) : Fragment → Option Fragment
| .method i s a _ =>
    some (.method i s a (some (Section.empty id)))
| _ => none

------------------------------------------------------------
-- Modules
------------------------------------------------------------

/- Set the fragment for the package's own file. -/
def setPackage? (package : Fragment) : Fragment → Option Fragment
| .module i _ cs => some (.module i (some package) cs)
| _ => none

/- Change what the package fragment of a module carries. -/
def modifyPackageInfo?
    (change : Info → Info) : Fragment → Option Fragment
| .module i (some p) cs =>
    some (.module i (some (p.modifyInfo change)) cs)
| _ => none

/- Change what the child of a module at a place carries. -/
def modifyChildInfo?
    (index : Nat)
    (change : Info → Info) : Fragment → Option Fragment
| .module i p cs =>
    if index < cs.length then
      some (.module i p
        (cs.modify index (fun c => c.modifyInfo change)))
    else
      none
| _ => none

------------------------------------------------------------
-- Classifiers
------------------------------------------------------------

/- Set the declaration of a classifier. -/
def declare? (text : String) : Fragment → Option Fragment
| .classifier i h m _ ms x =>
    some (.classifier i h m text ms x)
| _ => none

/- Set the header of a classifier. -/
def setHeader? (header : Fragment) : Fragment → Option Fragment
| .classifier i _ m d ms x =>
    some (.classifier i (some header) m d ms x)
| _ => none

/- Set the imports of a classifier. -/
def setImports? (imports : Fragment) : Fragment → Option Fragment
| .classifier i h _ d ms x =>
    some (.classifier i h (some imports) d ms x)
| _ => none

/- Give a classifier an empty section for extras. -/
def createExtras?
    (id : SectionId) : Fragment → Option Fragment
| .classifier i h m d ms _ =>
    some (.classifier i h m d ms (some (Section.empty id)))
| _ => none

/-
  Add a line to the header of a classifier.  A classifier
  without a header gets an empty simple one first, with the
  given id; a header of another kind takes no lines.
-/
def addStandardImport?
    (fresh : FragmentId)
    (line : String) :
    Fragment → Option (Except FragmentError Fragment)
| .classifier i h m d ms x =>
    let header :=
      h.getD (create fresh .simple "header" .other)
    match header.append? line with
    | some extended =>
        some (.ok (.classifier i (some extended) m d ms x))
    | none =>
        some (.error
          (.unsupportedOperation .append header.kind))
| _ => none

end Fragment

end Palimpsest
