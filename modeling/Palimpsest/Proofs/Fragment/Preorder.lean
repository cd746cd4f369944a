import Mathlib.Data.List.Perm.Basic
import Mathlib.Logic.Relation
import Palimpsest.Fragment.Find
import Palimpsest.Proofs.Fragment.Change

/-
  The fragments of a tree in pre-order.

  A fragment is met before its parts: the package fragment
  before the children of a module; header, imports and members
  of a classifier in this order; the children of a group.  The
  fragments that are met are those that are reached from part
  to part, the search finds the first of them with the id, and
  the sections of a tree are the sections that they own.

  Main declarations:
    * `Fragment.parts`
    * `Fragment.induct_parts`
    * `Fragment.Reaches`
    * `Fragment.preorder`
    * `Fragment.mem_preorder_iff`
    * `Fragment.find?_eq_preorder_find?`
    * `Fragment.sections_perm_owned`
-/

namespace Palimpsest

namespace Fragment

------------------------------------------------------------
-- Parts
------------------------------------------------------------

/- The parts of a fragment, in the order of the search. -/
def parts : Fragment → List Fragment
| .module _ p cs => p.toList ++ cs
| .classifier _ h m _ ms _ => h.toList ++ m.toList ++ ms
| .group _ cs => cs
| .method _ _ _ _ => []
| .simple _ _ => []
| .template _ _ => []

/-
  What holds of a fragment whenever it holds of its parts
  holds of every fragment, whatever its kind.
-/
theorem induct_parts
    {motive : Fragment → Prop}
    (step : ∀ f, (∀ g ∈ f.parts, motive g) → motive f)
    (f : Fragment) : motive f := by
  induction f using Fragment.induct with
  | module i p cs ihPackage ihChildren =>
      exact step _
        (List.forall_mem_append.mpr ⟨ihPackage, ihChildren⟩)
  | classifier i h m d ms x ihHeader ihImports ihMembers =>
      exact step _ (List.forall_mem_append.mpr
        ⟨List.forall_mem_append.mpr ⟨ihHeader, ihImports⟩,
          ihMembers⟩)
  | group i cs ihChildren =>
      exact step _ ihChildren
  | method i s a b =>
      exact step _ (List.forall_mem_nil _)
  | simple i t =>
      exact step _ (List.forall_mem_nil _)
  | template i s =>
      exact step _ (List.forall_mem_nil _)

/-
  A fragment reaches itself, its parts, their parts, and so
  on.
-/
def Reaches (f g : Fragment) : Prop :=
  Relation.ReflTransGen (fun f g => g ∈ f.parts) f g

------------------------------------------------------------
-- Pre-order
------------------------------------------------------------

mutual

/- A fragment and all that it reaches, in pre-order. -/
def preorder : Fragment → List Fragment
| .module i p cs =>
    .module i p cs :: (preorderOption p ++ preorderList cs)
| .classifier i h m d ms x =>
    .classifier i h m d ms x ::
      (preorderOption h ++ preorderOption m ++
        preorderList ms)
| .group i cs => .group i cs :: preorderList cs
| .method i s a b => [.method i s a b]
| .simple i t => [.simple i t]
| .template i s => [.template i s]

/- An optional fragment and all that it reaches. -/
def preorderOption : Option Fragment → List Fragment
| none => []
| some f => preorder f

/- The fragments of a list and all that they reach. -/
def preorderList : List Fragment → List Fragment
| [] => []
| f :: fs => preorder f ++ preorderList fs

end

/- The pre-order of a list, fragment by fragment. -/
theorem preorderList_eq_flatMap (fs : List Fragment) :
    preorderList fs = fs.flatMap preorder := by
  induction fs with
  | nil =>
      rfl
  | cons f fs ih =>
      rw [preorderList, ih, List.flatMap_cons]

/- The pre-order of an optional fragment, as of a list. -/
theorem preorderOption_eq_flatMap (f : Option Fragment) :
    preorderOption f = f.toList.flatMap preorder := by
  cases f <;> simp [preorderOption]

/- A fragment is met before its parts. -/
theorem preorder_eq_cons (f : Fragment) :
    f.preorder = f :: f.parts.flatMap preorder := by
  cases f <;>
    simp only [preorder, parts, preorderOption_eq_flatMap,
      preorderList_eq_flatMap, List.flatMap_append,
      List.flatMap_nil]

/- What is met in pre-order is what is reached. -/
theorem mem_preorder_iff {f g : Fragment} :
    g ∈ f.preorder ↔ f.Reaches g := by
  constructor
  · intro hMem
    induction f using induct_parts with
    | step f ih =>
        rw [preorder_eq_cons, List.mem_cons,
          List.mem_flatMap] at hMem
        rcases hMem with rfl | ⟨part, hPart, hMem⟩
        · exact .refl
        · exact .head hPart (ih part hPart hMem)
  · intro hReaches
    induction hReaches using Relation.ReflTransGen.head_induction_on with
    | refl =>
        rw [preorder_eq_cons]
        exact List.mem_cons_self
    | head hPart _ ih =>
        rw [preorder_eq_cons]
        exact List.mem_cons_of_mem _
          (List.mem_flatMap.mpr ⟨_, hPart, ih⟩)

------------------------------------------------------------
-- The Search
------------------------------------------------------------

variable {target : FragmentId}

/- The search tries the fragments of a list in order. -/
theorem findList?_eq_findSome?
    (fs : List Fragment) :
    findList? target fs = fs.findSome? (find? target) := by
  induction fs with
  | nil =>
      rfl
  | cons f fs ih =>
      rw [findList?, ih, List.findSome?_cons]
      cases f.find? target <;> rfl

/- The search in an optional fragment, as in a list. -/
theorem findOption?_eq_findSome?
    (f : Option Fragment) :
    findOption? target f =
      f.toList.findSome? (find? target) := by
  cases f with
  | none =>
      rfl
  | some f =>
      rw [findOption?, Option.toList_some,
        List.findSome?_singleton]

/- The search tries a fragment before its parts. -/
theorem find?_eq_ite (f : Fragment) :
    f.find? target =
      if f.id = target then
        some f
      else
        f.parts.findSome? (find? target) := by
  cases f <;>
    simp only [find?, parts, findOption?_eq_findSome?,
      findList?_eq_findSome?, List.findSome?_append,
      List.findSome?_nil]

/- The first fragment in pre-order that has the id is found. -/
theorem find?_eq_preorder_find? (f : Fragment) :
    f.find? target =
      f.preorder.find? (fun g => g.id = target) := by
  induction f using induct_parts with
  | step f ih =>
      have hParts :
          f.parts.findSome? (find? target) =
            (f.parts.flatMap preorder).find?
              (fun g => g.id = target) := by
        rw [List.find?_flatMap, ← List.head?_filterMap,
          ← List.head?_filterMap, List.filterMap_congr ih]
      rw [find?_eq_ite, preorder_eq_cons, List.find?_cons]
      by_cases hId : f.id = target
      · rw [if_pos hId, decide_eq_true hId]
      · rw [if_neg hId, decide_eq_false hId, hParts]

/- The ids of a fragment and all that it reaches. -/
def ids (f : Fragment) : List FragmentId :=
  f.preorder.map id

/- Nothing is found if no fragment has the id. -/
theorem find?_eq_none_iff {f : Fragment} :
    f.find? target = none ↔ target ∉ f.ids := by
  rw [find?_eq_preorder_find?, List.find?_eq_none, ids,
    List.mem_map]
  simp

/- Something is found if a fragment that is reached has the id. -/
theorem exists_find?_iff {f : Fragment} :
    (∃ g, f.find? target = some g) ↔
      ∃ g, f.Reaches g ∧ g.id = target := by
  rw [← Option.isSome_iff_exists, find?_eq_preorder_find?,
    List.find?_isSome]
  simp only [mem_preorder_iff, decide_eq_true_eq]

------------------------------------------------------------
-- Sections
------------------------------------------------------------

/- The sections that a fragment owns itself. -/
def owned : Fragment → List Section
| .module i _ _ => i.sections
| .classifier i _ _ _ _ x => i.sections ++ x.toList
| .group i _ => i.sections
| .method i _ _ b => i.sections ++ b.toList
| .simple i _ => i.sections
| .template i _ => i.sections

/- The walk meets a fragment's own sections and its parts'. -/
theorem sections_perm_parts (f : Fragment) :
    f.sections.Perm (f.owned ++ f.parts.flatMap sections) := by
  cases f with
  | classifier i h m d ms x =>
      -- The extras are met behind the parts.
      have hWalk :
          (Fragment.classifier i h m d ms x).sections =
            i.sections ++
              ((h.toList ++ m.toList ++ ms).flatMap sections ++
                x.toList) := by
        simp only [sections, sectionsOption_eq_flatMap,
          sectionsList_eq_flatMap, List.flatMap_append,
          List.append_assoc]
      rw [hWalk, owned, parts,
        List.append_assoc i.sections x.toList]
      exact List.Perm.append_left _ List.perm_append_comm
  | _ =>
      simp only [sections, owned, parts,
        sectionsOption_eq_flatMap, sectionsList_eq_flatMap,
        List.flatMap_append, List.flatMap_nil,
        List.append_nil, List.append_assoc]
      exact List.Perm.refl _

/- The walk meets what the fragments of the tree own. -/
theorem sections_perm_owned (f : Fragment) :
    f.sections.Perm (f.preorder.flatMap owned) := by
  induction f using induct_parts with
  | step f ih =>
      refine f.sections_perm_parts.trans ?_
      rw [preorder_eq_cons, List.flatMap_cons,
        List.flatMap_assoc]
      exact List.Perm.append_left _
        (List.Perm.flatMap_left _ ih)

end Fragment

end Palimpsest
