import Palimpsest.Fragment.Basic

/-
  This file defines the search for a fragment in a tree.

  Fragments are met in pre-order: a fragment before its parts,
  the package fragment before the children of a module, and
  header, imports and members of a classifier in this order.
  The first fragment with the id that is looked for is found.

  Key definitions include:
    * `Palimpsest.Fragment.find?`
    * `Palimpsest.Fragment.update?`
-/

namespace Palimpsest

namespace Fragment

------------------------------------------------------------
-- Finding
------------------------------------------------------------

mutual

/- The first fragment with an id. -/
def find? (target : FragmentId) (f : Fragment) :
    Option Fragment :=
  if f.id = target then
    some f
  else
    match f with
    | .module _ p cs =>
        (findOption? target p).or (findList? target cs)
    | .classifier _ h m _ ms _ =>
        ((findOption? target h).or (findOption? target m)).or
          (findList? target ms)
    | .group _ cs => findList? target cs
    | .method _ _ _ _ => none
    | .simple _ _ => none
    | .template _ _ => none

/- The first fragment with an id in an optional fragment. -/
def findOption? (target : FragmentId) :
    Option Fragment → Option Fragment
| none => none
| some f => find? target f

/- The first fragment with an id in a list of fragments. -/
def findList? (target : FragmentId) :
    List Fragment → Option Fragment
| [] => none
| f :: fs => (find? target f).or (findList? target fs)

end

------------------------------------------------------------
-- Updating
------------------------------------------------------------

mutual

/- Change the first fragment with an id, if there is one. -/
def update?
    (target : FragmentId)
    (change : Fragment → Fragment)
    (f : Fragment) : Option Fragment :=
  if f.id = target then
    some (change f)
  else
    match f with
    | .module i p cs =>
        match updateOption? target change p with
        | some p' => some (.module i (some p') cs)
        | none =>
            (updateList? target change cs).map
              (fun cs' => .module i p cs')
    | .classifier i h m d ms x =>
        match updateOption? target change h with
        | some h' => some (.classifier i (some h') m d ms x)
        | none =>
            match updateOption? target change m with
            | some m' =>
                some (.classifier i h (some m') d ms x)
            | none =>
                (updateList? target change ms).map
                  (fun ms' => .classifier i h m d ms' x)
    | .group i cs =>
        (updateList? target change cs).map
          (fun cs' => .group i cs')
    | .method _ _ _ _ => none
    | .simple _ _ => none
    | .template _ _ => none

/- Change the first fragment with an id in an optional one. -/
def updateOption?
    (target : FragmentId)
    (change : Fragment → Fragment) :
    Option Fragment → Option Fragment
| none => none
| some f => update? target change f

/- Change the first fragment with an id in a list. -/
def updateList?
    (target : FragmentId)
    (change : Fragment → Fragment) :
    List Fragment → Option (List Fragment)
| [] => none
| f :: fs =>
    match update? target change f with
    | some f' => some (f' :: fs)
    | none =>
        (updateList? target change fs).map
          (fun fs' => f :: fs')

end

end Fragment

end Palimpsest
