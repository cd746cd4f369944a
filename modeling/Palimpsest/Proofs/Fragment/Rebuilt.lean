import Palimpsest.Proofs.Fragment.Emitted

/-
  Trees that are built in the same way.

  Building a tree takes fresh ids for its fragments, so two
  trees that are built in the same way differ in those ids and
  in nothing else.  The ids are neither written nor met by the
  walk over the sections.

  Main declarations:
    * `Fragment.renumber`
    * `Fragment.Rebuilt`
    * `Fragment.Rebuilt.sections`
    * `Fragment.Rebuilt.render_mapSections`
-/

namespace Palimpsest

------------------------------------------------------------
-- Renumbering
------------------------------------------------------------

/- Change the id of the fragment. -/
def Info.renumber
    (number : FragmentId → FragmentId)
    (i : Info) : Info :=
  { i with id := number i.id }

namespace Fragment

mutual

/- Change the ids of a fragment and all its parts. -/
def renumber
    (number : FragmentId → FragmentId) : Fragment → Fragment
| .module i p cs =>
    .module (i.renumber number)
      (renumberOption number p) (renumberList number cs)
| .classifier i h m d ms x =>
    .classifier (i.renumber number)
      (renumberOption number h) (renumberOption number m) d
      (renumberList number ms) x
| .group i cs =>
    .group (i.renumber number) (renumberList number cs)
| .method i s a b => .method (i.renumber number) s a b
| .simple i t => .simple (i.renumber number) t
| .template i s => .template (i.renumber number) s

/- Change the ids of an optional fragment. -/
def renumberOption
    (number : FragmentId → FragmentId) :
    Option Fragment → Option Fragment
| none => none
| some f => some (renumber number f)

/- Change the ids of a list of fragments. -/
def renumberList
    (number : FragmentId → FragmentId) :
    List Fragment → List Fragment
| [] => []
| f :: fs => renumber number f :: renumberList number fs

end

variable (number : FragmentId → FragmentId)

theorem renumberList_eq_map (fs : List Fragment) :
    renumberList number fs = fs.map (renumber number) := by
  induction fs with
  | nil =>
      rfl
  | cons f fs ih =>
      rw [renumberList, ih, List.map_cons]

theorem renumberOption_eq_map (f : Option Fragment) :
    renumberOption number f = f.map (renumber number) := by
  cases f <;> rfl

/- What ignores the ids of parts ignores those of a list. -/
theorem flatMap_renumber
    {α : Type}
    {view : Fragment → List α}
    {fs : List Fragment}
    (hParts : ∀ f ∈ fs, view (f.renumber number) = view f) :
    (fs.map (renumber number)).flatMap view =
      fs.flatMap view := by
  rw [List.flatMap_map]
  exact List.flatMap_congr hParts

/- The walk over the sections ignores ids of fragments. -/
theorem sections_renumber (f : Fragment) :
    (f.renumber number).sections = f.sections := by
  have hInfo (i : Info) :
      (i.renumber number).sections = i.sections :=
    rfl
  induction f using Fragment.induct with
  | module i p cs ihPackage ihChildren =>
      simp only [renumber, sections, hInfo,
        sectionsOption_eq_flatMap, sectionsList_eq_flatMap,
        renumberOption_eq_map, renumberList_eq_map,
        Option.toList_map, flatMap_renumber number ihPackage,
        flatMap_renumber number ihChildren]
  | classifier i h m d ms x ihHeader ihImports ihMembers =>
      simp only [renumber, sections, hInfo,
        sectionsOption_eq_flatMap, sectionsList_eq_flatMap,
        renumberOption_eq_map, renumberList_eq_map,
        Option.toList_map, flatMap_renumber number ihHeader,
        flatMap_renumber number ihImports,
        flatMap_renumber number ihMembers]
  | group i cs ihChildren =>
      simp only [renumber, sections, hInfo,
        sectionsList_eq_flatMap, renumberList_eq_map,
        flatMap_renumber number ihChildren]
  | method i s a b =>
      rfl
  | simple i t =>
      rfl
  | template i s =>
      rfl

/- Writing ignores ids of fragments. -/
theorem items_renumber
    (f : Fragment)
    (depth : Nat) :
    (f.renumber number).items depth = f.items depth := by
  have hPrologue (i : Info) (depth : Nat) :
      (i.renumber number).prologueItems depth =
        i.prologueItems depth :=
    rfl
  have hAfter (i : Info) (depth : Nat) :
      (i.renumber number).afterItems depth =
        i.afterItems depth :=
    rfl
  induction f using Fragment.induct generalizing depth with
  | module i p cs ihPackage ihChildren =>
      have hPackage := flatMap_renumber number
        (fun f hf => ihPackage f hf depth)
      simp only [renumber, items, itemsOption_eq_flatMap,
        renumberOption_eq_map, Option.toList_map, hPackage]
  | classifier i h m d ms x ihHeader ihImports ihMembers =>
      have hHeader := flatMap_renumber number
        (fun f hf => ihHeader f hf depth)
      have hImports := flatMap_renumber number
        (fun f hf => ihImports f hf depth)
      have hMembers := flatMap_renumber number
        (fun f hf => ihMembers f hf (depth + 1))
      simp only [renumber, items, hPrologue, hAfter,
        itemsOption_eq_flatMap, itemsList_eq_flatMap,
        renumberOption_eq_map, renumberList_eq_map,
        Option.toList_map, hHeader, hImports, hMembers]
  | group i cs ihChildren =>
      have hChildren := flatMap_renumber number
        (fun f hf => ihChildren f hf depth)
      simp only [renumber, items, itemsList_eq_flatMap,
        renumberList_eq_map, hChildren]
  | method i s a b =>
      rfl
  | simple i t =>
      rfl
  | template i s =>
      rfl

------------------------------------------------------------
-- Rebuilt Trees
------------------------------------------------------------

/- The same tree, apart from the ids of its fragments. -/
def Rebuilt (f g : Fragment) : Prop :=
  f.renumber (fun _ => ⟨0⟩) = g.renumber (fun _ => ⟨0⟩)

variable {f g : Fragment}

/- Rebuilt trees have the same sections. -/
theorem Rebuilt.sections (hBuilt : f.Rebuilt g) :
    f.sections = g.sections := by
  rw [← sections_renumber (fun _ => ⟨0⟩) f, hBuilt,
    sections_renumber]

/- Rebuilt trees are written alike. -/
theorem Rebuilt.items
    (hBuilt : f.Rebuilt g)
    (depth : Nat) :
    f.items depth = g.items depth := by
  rw [← items_renumber (fun _ => ⟨0⟩) f, hBuilt,
    items_renumber]

/- Rebuilt trees have the same text. -/
theorem Rebuilt.render
    (hBuilt : f.Rebuilt g)
    (unit : String)
    (style : SectionStyle) :
    f.render unit style = g.render unit style := by
  simp only [render_eq_unlines, hBuilt.items]

/- Lists of rebuilt trees differ in ids only. -/
theorem renumberList_of_rebuilt
    {fs gs : List Fragment}
    (hBuilt : List.Forall₂ Rebuilt fs gs) :
    renumberList (fun _ => ⟨0⟩) fs =
      renumberList (fun _ => ⟨0⟩) gs := by
  induction hBuilt with
  | nil =>
      rfl
  | cons hFirst _ ih =>
      exact congrArg₂ List.cons hFirst ih

/- The same change of sections gives the same text. -/
theorem Rebuilt.render_mapSections
    (hBuilt : f.Rebuilt g)
    (change : Section → Section)
    (unit : String)
    (style : SectionStyle) :
    (f.mapSections change).render unit style =
      (g.mapSections change).render unit style := by
  rw [render_eq_unlines, render_eq_unlines,
    items_mapSections, items_mapSections, hBuilt.items]

/- Rebuilt trees are of one kind. -/
theorem Rebuilt.kind (hBuilt : f.Rebuilt g) :
    f.kind = g.kind := by
  have hKind (f : Fragment) :
      (f.renumber (fun _ => ⟨0⟩)).kind = f.kind := by
    cases f <;> rfl
  rw [← hKind f, hBuilt, hKind]

/- Rebuilt trees carry the same, apart from the id. -/
theorem Rebuilt.info (hBuilt : f.Rebuilt g) :
    f.info.renumber (fun _ => ⟨0⟩) =
      g.info.renumber (fun _ => ⟨0⟩) := by
  have hInfo (f : Fragment) :
      (f.renumber (fun _ => ⟨0⟩)).info =
        f.info.renumber (fun _ => ⟨0⟩) := by
    cases f <;> rfl
  rw [← hInfo f, hBuilt, hInfo]

/- Rebuilt trees have the same qualified name. -/
theorem Rebuilt.qualifiedName (hBuilt : f.Rebuilt g) :
    f.info.qualifiedName = g.info.qualifiedName := by
  have hName := congrArg Info.qualifiedName hBuilt.info
  exact hName

/- Rebuilt trees have the same name. -/
theorem Rebuilt.name (hBuilt : f.Rebuilt g) :
    f.name = g.name := by
  have hName := congrArg Info.name hBuilt.info
  exact hName

/- Rebuilt trees have the same name in a report. -/
theorem Rebuilt.unitName (hBuilt : f.Rebuilt g) :
    f.unitName = g.unitName := by
  unfold Fragment.unitName
  rw [hBuilt.qualifiedName, hBuilt.name]

end Fragment

end Palimpsest
