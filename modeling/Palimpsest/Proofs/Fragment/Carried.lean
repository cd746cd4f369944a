import Mathlib.Data.List.Nodup
import Palimpsest.Fragment.Forest
import Palimpsest.Proofs.Fragment.Change

/-
  What the fragments of a tree and of a forest carry, and what
  the search and an update do to it.

  An update reaches the fragment that the search finds.  It
  exchanges what this fragment and its parts carry and leaves
  the rest.

  Main declarations:
    * `Fragment.infos`
    * `Fragment.Exchanges`
    * `Fragment.exchanges_update?`
    * `Forest.infos`
    * `Forest.infos_replace`
-/

namespace Palimpsest

namespace Fragment

------------------------------------------------------------
-- What The Fragments Of A Tree Carry
------------------------------------------------------------

mutual

/- What a fragment and its parts carry, in search order. -/
def infos : Fragment → List Info
| .module i p cs => i :: (infosOption p ++ infosList cs)
| .classifier i h m _ ms _ =>
    i :: (infosOption h ++ infosOption m ++ infosList ms)
| .group i cs => i :: infosList cs
| .method i _ _ _ => [i]
| .simple i _ => [i]
| .template i _ => [i]

/- What an optional fragment and its parts carry. -/
def infosOption : Option Fragment → List Info
| none => []
| some f => infos f

/- What the fragments of a list and their parts carry. -/
def infosList : List Fragment → List Info
| [] => []
| f :: fs => infos f ++ infosList fs

end

/- A fragment is met before its parts. -/
theorem exists_infos (f : Fragment) :
    ∃ parts,
      f.infos = f.info :: parts ∧
        ∀ change,
          (f.modifyInfo change).infos =
            change f.info :: parts := by
  cases f <;> exact ⟨_, rfl, fun _ => rfl⟩

------------------------------------------------------------
-- Exchanging One Fragment
------------------------------------------------------------

/-
  What an update leaves of what was carried before.  When the
  search finds nothing, no fragment has the id, and nothing is
  updated.  What is found has the id, and what it and its
  parts carry is exchanged.
-/
def Exchanges
    (target : FragmentId)
    (change : Fragment → Fragment)
    (found : Option Fragment)
    (before : List Info)
    (after : Option (List Info)) : Prop :=
  match found with
  | none =>
      after = none ∧ ∀ i ∈ before, i.id ≠ target
  | some g =>
      g.id = target ∧
        ∃ front back,
          before = front ++ g.infos ++ back ∧
            after = some (front ++ (change g).infos ++ back)

variable {target : FragmentId}
variable {change : Fragment → Fragment}
variable {found other : Option Fragment}
variable {before more : List Info}
variable {after further : Option (List Info)}

/- Nothing is found where nothing is. -/
theorem exchanges_nil :
    Exchanges target change none [] none := by
  simp [Exchanges]

/- An exchange behind a fragment with another id. -/
theorem Exchanges.cons
    {i : Info}
    (hOther : i.id ≠ target)
    (hRest : Exchanges target change found before after) :
    Exchanges target change found (i :: before)
      (after.map (fun infos => i :: infos)) := by
  cases found with
  | none =>
      rcases hRest with ⟨rfl, hBefore⟩
      exact ⟨rfl, List.forall_mem_cons.mpr
        ⟨hOther, hBefore⟩⟩
  | some g =>
      rcases hRest with ⟨hId, front, back, rfl, rfl⟩
      exact ⟨hId, i :: front, back, by simp, by simp⟩

/- The search goes on where it has found nothing. -/
theorem Exchanges.append
    (hFirst : Exchanges target change found before after)
    (hRest : Exchanges target change other more further) :
    Exchanges target change (found.or other) (before ++ more)
      ((after.map (fun infos => infos ++ more)).or
        (further.map (fun infos => before ++ infos))) := by
  cases found with
  | some g =>
      rcases hFirst with ⟨hId, front, back, rfl, rfl⟩
      exact ⟨hId, front, back ++ more, by simp, by simp⟩
  | none =>
      rcases hFirst with ⟨rfl, hBefore⟩
      cases other with
      | none =>
          rcases hRest with ⟨rfl, hMore⟩
          exact ⟨rfl, List.forall_mem_append.mpr
            ⟨hBefore, hMore⟩⟩
      | some g =>
          rcases hRest with ⟨hId, front, back, rfl, rfl⟩
          exact ⟨hId, before ++ front, back, by simp, by simp⟩

/- A fragment with the id is exchanged itself. -/
theorem exchanges_self
    {f : Fragment}
    (hId : f.id = target) :
    Exchanges target change (f.find? target) f.infos
      ((f.update? target change).map infos) := by
  have hFind : f.find? target = some f := by
    cases f <;> simp [find?, hId]
  have hUpdate : f.update? target change = some (change f) := by
    cases f <;> simp [update?, hId]
  rw [hFind, hUpdate]
  exact ⟨hId, [], [], by simp, by simp⟩

/- An update of an optional fragment exchanges what is found. -/
theorem exchanges_updateOption?
    {f : Option Fragment}
    (hParts : ∀ g ∈ f.toList,
      Exchanges target change (g.find? target) g.infos
        ((g.update? target change).map infos)) :
    Exchanges target change (findOption? target f)
      (infosOption f)
      ((updateOption? target change f).map infos) := by
  cases f with
  | none =>
      exact exchanges_nil
  | some f =>
      exact hParts f (by simp)

/- An update of a list exchanges what is found. -/
theorem exchanges_updateList?
    {fs : List Fragment}
    (hParts : ∀ f ∈ fs,
      Exchanges target change (f.find? target) f.infos
        ((f.update? target change).map infos)) :
    Exchanges target change (findList? target fs)
      (infosList fs)
      ((updateList? target change fs).map infosList) := by
  induction fs with
  | nil =>
      exact exchanges_nil
  | cons f fs ih =>
      rw [List.forall_mem_cons] at hParts
      have hBoth := hParts.1.append (ih hParts.2)
      cases hFirst : f.update? target change <;>
        simpa [updateList?, findList?, infosList, hFirst,
          Function.comp_def] using hBoth

/- An update exchanges the fragment that the search finds. -/
theorem exchanges_update?
    (target : FragmentId)
    (change : Fragment → Fragment)
    (f : Fragment) :
    Exchanges target change (f.find? target) f.infos
      ((f.update? target change).map infos) := by
  -- A fragment with another id leaves the search to its
  -- parts, which are tried in order.
  induction f using Fragment.induct with
  | module i p cs ihPackage ihChildren =>
      by_cases hId : (Fragment.module i p cs).id = target
      · exact exchanges_self hId
      · have hParts := (exchanges_updateOption? ihPackage).append
          (exchanges_updateList? ihChildren)
        have hAll := hParts.cons (i := i) hId
        cases hPackage : updateOption? target change p <;>
          simpa [find?, update?, hId, hPackage, infos,
            infosOption, Function.comp_def] using hAll
  | classifier i h m d ms x ihHeader ihImports ihMembers =>
      by_cases hId :
          (Fragment.classifier i h m d ms x).id = target
      · exact exchanges_self hId
      · have hParts :=
          ((exchanges_updateOption? ihHeader).append
            (exchanges_updateOption? ihImports)).append
              (exchanges_updateList? ihMembers)
        have hAll := hParts.cons (i := i) hId
        cases hHeader : updateOption? target change h <;>
          cases hImports : updateOption? target change m <;>
            simpa [find?, update?, hId, hHeader, hImports,
              infos, infosOption, Function.comp_def]
              using hAll
  | group i cs ihChildren =>
      by_cases hId : (Fragment.group i cs).id = target
      · exact exchanges_self hId
      · have hAll :=
          (exchanges_updateList? ihChildren).cons (i := i) hId
        simpa [find?, update?, hId, infos, Function.comp_def]
          using hAll
  | method i s a b =>
      by_cases hId : (Fragment.method i s a b).id = target
      · exact exchanges_self hId
      · simpa [find?, update?, hId, infos] using
          exchanges_nil.cons (i := i) hId
  | simple i t =>
      by_cases hId : (Fragment.simple i t).id = target
      · exact exchanges_self hId
      · simpa [find?, update?, hId, infos] using
          exchanges_nil.cons (i := i) hId
  | template i s =>
      by_cases hId : (Fragment.template i s).id = target
      · exact exchanges_self hId
      · simpa [find?, update?, hId, infos] using
          exchanges_nil.cons (i := i) hId

end Fragment

------------------------------------------------------------
-- What The Fragments Of A Forest Carry
------------------------------------------------------------

namespace Forest

/- What the fragments of all trees carry, oldest tree first. -/
def infos (s : Forest) : List Info :=
  s.roots.flatMap (fun root => root.2.infos)

/- The ids of all fragments. -/
def ids (s : Forest) : List FragmentId :=
  s.infos.map Info.id

variable {target : FragmentId}

/- A replacement exchanges what the search finds. -/
theorem exchanges_replaceIn
    (changed : Fragment)
    {g : Fragment}
    {roots : List (String × Fragment)}
    (hFind :
      roots.findSome? (fun root => root.2.find? target) =
        some g) :
    g.id = target ∧
      ∃ front back,
        roots.flatMap (fun root => root.2.infos) =
          front ++ g.infos ++ back ∧
        (replaceIn target changed roots).flatMap
            (fun root => root.2.infos) =
          front ++ changed.infos ++ back := by
  induction roots with
  | nil =>
      simp at hFind
  | cons root rest ih =>
      rcases root with ⟨label, f⟩
      have hTree := Fragment.exchanges_update? target
        (fun _ => changed) f
      cases hFirst : f.find? target with
      | none =>
          rw [List.findSome?_cons, hFirst] at hFind
          rw [hFirst] at hTree
          rcases ih hFind with
            ⟨hId, front, back, hBefore, hAfter⟩
          have hUpdate : f.update? target (fun _ => changed) =
              none :=
            Option.map_eq_none_iff.mp hTree.1
          exact ⟨hId, f.infos ++ front, back,
            by simp [hBefore],
            by simp [replaceIn, hUpdate, hAfter]⟩
      | some found =>
          simp only [List.findSome?_cons, hFirst,
            Option.some.injEq] at hFind
          subst hFind
          rw [hFirst] at hTree
          rcases hTree with ⟨hId, front, back, hBefore, hAfter⟩
          rcases Option.map_eq_some_iff.mp hAfter with
            ⟨updated, hUpdate, hInfos⟩
          exact ⟨hId, front,
            back ++ rest.flatMap (fun root => root.2.infos),
            by simp [hBefore],
            by simp [replaceIn, hUpdate, hInfos]⟩

/- No fragment has an id that the search does not find. -/
theorem ne_of_find?_eq_none
    {s : Forest}
    (hFind : s.find? target = none) :
    ∀ i ∈ s.infos, i.id ≠ target := by
  intro i hi
  rcases List.mem_flatMap.mp hi with ⟨root, hRoot, hi⟩
  have hTree := Fragment.exchanges_update? target
    (fun f => f) root.2
  rw [List.findSome?_eq_none_iff.mp hFind root hRoot] at hTree
  exact hTree.2 i hi

/- What the search finds has the id. -/
theorem id_of_find?
    {s : Forest}
    {g : Fragment}
    (hFind : s.find? target = some g) :
    g.id = target :=
  (exchanges_replaceIn g hFind).1

/-
  When ids do not repeat, changing what the found fragment
  carries changes this and nothing else.
-/
theorem infos_replace
    {s : Forest}
    {g : Fragment}
    (hIds : s.ids.Nodup)
    (hFind : s.find? target = some g)
    (change : Info → Info) :
    (s.replace target (g.modifyInfo change)).infos =
      s.infos.map
        (fun i => if i.id = target then change i else i) := by
  rcases exchanges_replaceIn (g.modifyInfo change) hFind with
    ⟨hId, front, back, hBefore, hAfter⟩
  rcases g.exists_infos with ⟨parts, hInfos, hChanged⟩
  have hBoth : s.infos =
      front ++ g.info :: (parts ++ back) := by
    unfold infos
    rw [hBefore, hInfos]
    simp
  have hOwn : g.info.id = target := hId
  -- Ids do not repeat, so no other fragment is changed.
  have hOther : ∀ i ∈ front ++ (parts ++ back),
      i.id ≠ target := by
    unfold ids at hIds
    rw [hBoth, List.map_append, List.map_cons,
      List.nodup_middle, List.nodup_cons, ← List.map_append]
      at hIds
    intro i hi hSame
    exact hIds.1
      (List.mem_map.mpr ⟨i, hi, hSame.trans hOwn.symm⟩)
  have hKeep (rest : List Info)
      (hRest : rest ⊆ front ++ (parts ++ back)) :
      rest.map
        (fun i => if i.id = target then change i else i) =
          rest := by
    rw [List.map_congr_left (fun i hi =>
      if_neg (hOther i (hRest hi))), List.map_id']
  calc
    (s.replace target (g.modifyInfo change)).infos =
        front ++ change g.info :: (parts ++ back) := by
      unfold infos replace
      rw [hAfter, hChanged]
      simp
    _ = s.infos.map
        (fun i => if i.id = target then change i else i) := by
      rw [hBoth, List.map_append, List.map_cons,
        if_pos hOwn, hKeep front (by simp),
        hKeep (parts ++ back) (by simp)]

end Forest

end Palimpsest
