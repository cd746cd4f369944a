import Mathlib.Data.List.Nodup
import Palimpsest.Proofs.Fragment.Emitted

/-
  When sections are met in the order in which they are written.

  The walk over a tree meets the sections around a fragment
  before those inside it.  Writing puts the sections after a
  method behind its body, and the sections around a classifier
  behind those of its header and imports.  So both orders
  agree if no method has a body and sections after it, and no
  classifier has sections around it and in front of it; and if
  ids are unique they agree in no other case.

  Main declarations:
    * `Fragment.KeepsOrder`
    * `Fragment.sections_eq_emitted`
    * `Fragment.keepsOrder_of_eq`
    * `Fragment.sectionIds_in_writing_order`
-/

namespace Palimpsest

namespace Fragment

------------------------------------------------------------
-- Written Sections By Kind
------------------------------------------------------------

theorem regions_flatMap_items_eq
    (fs : List Fragment)
    (depth : Nat) :
    Item.regions (fs.flatMap (items depth)) =
      fs.flatMap emitted :=
  regions_flatMap_items (fun f _ => regions_items f) depth

theorem emitted_module
    (i : Info)
    (p : Option Fragment)
    (cs : List Fragment) :
    (Fragment.module i p cs).emitted =
      p.toList.flatMap emitted := by
  rw [emitted, items, itemsOption_eq_flatMap,
    regions_flatMap_items_eq]

theorem emitted_classifier
    (i : Info)
    (h m : Option Fragment)
    (d : String)
    (ms : List Fragment)
    (x : Option Section) :
    (Fragment.classifier i h m d ms x).emitted =
      h.toList.flatMap emitted ++ m.toList.flatMap emitted ++
        i.sections ++ (ms.flatMap emitted ++ x.toList) := by
  have hLine (text : String) :
      Item.regions [.line 0 text] = [] :=
    rfl
  simp only [emitted, items, itemsOption_eq_flatMap,
    itemsList_eq_flatMap, Item.regions_append,
    regions_flatMap_items_eq, Info.regions_prologueItems,
    Info.regions_afterItems, Item.regions_map_region, hLine,
    Info.sections, List.nil_append, List.append_nil,
    List.append_assoc]

theorem emitted_group
    (i : Info)
    (cs : List Fragment) :
    (Fragment.group i cs).emitted = cs.flatMap emitted := by
  rw [emitted, items, itemsList_eq_flatMap,
    regions_flatMap_items_eq]

theorem emitted_method
    (i : Info)
    (s : String)
    (a : Bool)
    (b : Option Section) :
    (Fragment.method i s a b).emitted =
      i.before ++ (b.toList ++ i.after) := by
  have hGap : Item.regions [.gap] = [] :=
    rfl
  simp only [emitted, items, Item.regions_append,
    Info.regions_prologueItems, Info.regions_afterItems,
    regions_bodyItems, hGap, List.append_nil,
    List.append_assoc]

theorem emitted_simple
    (i : Info)
    (t : String) :
    (Fragment.simple i t).emitted = i.sections := by
  have hGap : Item.regions [.gap] = [] :=
    rfl
  simp only [emitted, items, Item.regions_append,
    Info.regions_prologueItems, Info.regions_afterItems,
    Item.regions_map_line, hGap, Info.sections,
    List.append_nil]

theorem emitted_template
    (i : Info)
    (s : String) :
    (Fragment.template i s).emitted = [] := by
  rw [emitted, items, regions_sourceItems]

------------------------------------------------------------
-- Trees Whose Sections Are All Written
------------------------------------------------------------

/- If all sections are written, they are the written ones. -/
theorem sections_perm_emitted
    {f : Fragment}
    (hWritten : f.unwritten = []) :
    f.sections.Perm f.emitted := by
  have hPerm := f.sections_perm
  rw [hWritten, List.append_nil] at hPerm
  exact hPerm

/- The sections of parts, if all of them are written. -/
theorem flatMap_sections_perm
    {fs : List Fragment}
    (hWritten : ∀ f ∈ fs, f.unwritten = []) :
    (fs.flatMap sections).Perm (fs.flatMap emitted) := by
  induction fs with
  | nil =>
      exact List.Perm.refl []
  | cons f fs ih =>
      rw [List.forall_mem_cons] at hWritten
      rw [List.flatMap_cons, List.flatMap_cons]
      exact (sections_perm_emitted hWritten.1).append
        (ih hWritten.2)

theorem unwritten_module_eq_nil_iff
    {i : Info}
    {p : Option Fragment}
    {cs : List Fragment} :
    (Fragment.module i p cs).unwritten = [] ↔
      i.sections = [] ∧ (∀ f ∈ p.toList, f.unwritten = []) ∧
        cs.flatMap sections = [] := by
  simp only [unwritten, unwrittenOption_eq_flatMap,
    sectionsList_eq_flatMap, List.append_eq_nil_iff,
    List.flatMap_eq_nil_iff, and_assoc]

theorem unwritten_classifier_eq_nil_iff
    {i : Info}
    {h m : Option Fragment}
    {d : String}
    {ms : List Fragment}
    {x : Option Section} :
    (Fragment.classifier i h m d ms x).unwritten = [] ↔
      (∀ f ∈ h.toList, f.unwritten = []) ∧
        (∀ f ∈ m.toList, f.unwritten = []) ∧
          ∀ f ∈ ms, f.unwritten = [] := by
  simp only [unwritten, unwrittenOption_eq_flatMap,
    unwrittenList_eq_flatMap, List.append_eq_nil_iff,
    List.flatMap_eq_nil_iff, and_assoc]

theorem unwritten_group_eq_nil_iff
    {i : Info}
    {cs : List Fragment} :
    (Fragment.group i cs).unwritten = [] ↔
      i.sections = [] ∧ ∀ f ∈ cs, f.unwritten = [] := by
  simp only [unwritten, unwrittenList_eq_flatMap,
    List.append_eq_nil_iff, List.flatMap_eq_nil_iff]

------------------------------------------------------------
-- Trees That Keep The Order
------------------------------------------------------------

mutual

/-
  No classifier has sections around it and in its header or
  imports, and no method has a body and sections after it.
-/
def KeepsOrder : Fragment → Prop
| .module _ p _ => KeepsOrderOption p
| .classifier i h m _ ms _ =>
    (i.sections = [] ∨
      sectionsOption h ++ sectionsOption m = []) ∧
      KeepsOrderOption h ∧ KeepsOrderOption m ∧
        KeepsOrderList ms
| .group _ cs => KeepsOrderList cs
| .method i _ _ b => i.after = [] ∨ b = none
| .simple _ _ => True
| .template _ _ => True

/- An optional fragment keeps the order. -/
def KeepsOrderOption : Option Fragment → Prop
| none => True
| some f => KeepsOrder f

/- All fragments of a list keep the order. -/
def KeepsOrderList : List Fragment → Prop
| [] => True
| f :: fs => KeepsOrder f ∧ KeepsOrderList fs

end

theorem keepsOrderOption_iff (f : Option Fragment) :
    KeepsOrderOption f ↔ ∀ g ∈ f.toList, g.KeepsOrder := by
  cases f <;> simp [KeepsOrderOption]

theorem keepsOrderList_iff (fs : List Fragment) :
    KeepsOrderList fs ↔ ∀ f ∈ fs, f.KeepsOrder := by
  induction fs with
  | nil =>
      simp [KeepsOrderList]
  | cons f fs ih =>
      rw [KeepsOrderList, ih, List.forall_mem_cons]

/- Such a tree is walked in the order in which it is written. -/
theorem sections_eq_emitted
    {f : Fragment}
    (hWritten : f.unwritten = [])
    (hOrder : f.KeepsOrder) :
    f.sections = f.emitted := by
  induction f using Fragment.induct with
  | module i p cs ihPackage ihChildren =>
      rw [unwritten_module_eq_nil_iff] at hWritten
      rcases hWritten with ⟨hInfo, hPackage, hChildren⟩
      rw [KeepsOrder, keepsOrderOption_iff] at hOrder
      rw [sections, sectionsOption_eq_flatMap,
        sectionsList_eq_flatMap, hInfo, hChildren,
        List.nil_append, List.append_nil, emitted_module]
      exact List.flatMap_congr (fun g hg =>
        ihPackage g hg (hPackage g hg) (hOrder g hg))
  | classifier i h m d ms x ihHeader ihImports ihMembers =>
      rw [unwritten_classifier_eq_nil_iff] at hWritten
      rcases hWritten with ⟨hHeader, hImports, hMembers⟩
      rw [KeepsOrder, keepsOrderOption_iff,
        keepsOrderOption_iff, keepsOrderList_iff] at hOrder
      rcases hOrder with
        ⟨hFront, hHeaderOrder, hImportsOrder, hMembersOrder⟩
      have hH := List.flatMap_congr (fun g hg =>
        ihHeader g hg (hHeader g hg) (hHeaderOrder g hg))
      have hM := List.flatMap_congr (fun g hg =>
        ihImports g hg (hImports g hg) (hImportsOrder g hg))
      have hMs := List.flatMap_congr (fun g hg =>
        ihMembers g hg (hMembers g hg) (hMembersOrder g hg))
      rw [sections, emitted_classifier, ← hH, ← hM, ← hMs,
        sectionsList_eq_flatMap, List.append_assoc
          (i.sections ++ _ ++ _)]
      rw [← sectionsOption_eq_flatMap,
        ← sectionsOption_eq_flatMap]
      rcases hFront with hInfo | hNone
      · rw [hInfo, List.nil_append, List.append_nil]
      · rw [hNone, List.append_assoc i.sections, hNone,
          List.nil_append, List.append_nil]
  | group i cs ihChildren =>
      rw [unwritten_group_eq_nil_iff] at hWritten
      rw [KeepsOrder, keepsOrderList_iff] at hOrder
      rw [sections, sectionsList_eq_flatMap, hWritten.1,
        List.nil_append, emitted_group]
      exact List.flatMap_congr (fun g hg =>
        ihChildren g hg (hWritten.2 g hg) (hOrder g hg))
  | method i s a b =>
      rw [sections, Info.sections, emitted_method]
      rcases hOrder with hAfter | hBody
      · rw [hAfter, List.append_nil, List.append_nil]
      · rw [hBody, Option.toList_none, List.nil_append,
          List.append_nil]
  | simple i t =>
      rw [sections, emitted_simple]
  | template i s =>
      rw [sections, emitted_template]
      exact hWritten

------------------------------------------------------------
-- The Order Is Kept In No Other Case
------------------------------------------------------------

/- Two parts of a list change places only if one is empty. -/
theorem eq_nil_or_eq_nil_of_swap
    {α : Type}
    {front back moved : List α}
    (hNodup : (front ++ back).Nodup)
    (hMoved : back.Perm moved)
    (hSwap : front ++ back = moved ++ front) :
    front = [] ∨ back = [] := by
  cases front with
  | nil =>
      exact .inl rfl
  | cons x front =>
      cases moved with
      | nil =>
          exact .inr hMoved.eq_nil
      | cons y moved =>
          -- The first of the list would be in both parts.
          rw [List.cons_append, List.cons_append,
            List.cons.injEq] at hSwap
          rw [List.cons_append, List.nodup_cons,
            List.mem_append] at hNodup
          have hMem : x ∈ back :=
            hMoved.mem_iff.mpr (hSwap.1 ▸ List.mem_cons_self)
          exact absurd (.inr hMem) hNodup.1

/- Parts of the same lengths agree if they do in a row. -/
theorem eq_of_flatMap_sections_eq
    {fs : List Fragment}
    (hWritten : ∀ f ∈ fs, f.unwritten = [])
    (hEq : fs.flatMap sections = fs.flatMap emitted) :
    ∀ f ∈ fs, f.sections = f.emitted := by
  induction fs with
  | nil =>
      exact List.forall_mem_nil _
  | cons f fs ih =>
      rw [List.forall_mem_cons] at hWritten ⊢
      rw [List.flatMap_cons, List.flatMap_cons] at hEq
      have hLength :=
        (sections_perm_emitted hWritten.1).length_eq
      have hParts := List.append_inj hEq hLength
      exact ⟨hParts.1, ih hWritten.2 hParts.2⟩

/- The parts of a list without repetitions are so as well. -/
theorem nodup_sections_of_flatMap
    {fs : List Fragment}
    (hNodup : (fs.flatMap sections).Nodup) :
    ∀ f ∈ fs, f.sections.Nodup :=
  (List.nodup_flatMap.mp hNodup).1

/-
  If the walk meets each section once and all are written, the
  orders agree only for trees that keep them.
-/
theorem keepsOrder_of_eq
    {f : Fragment}
    (hWritten : f.unwritten = [])
    (hNodup : f.sections.Nodup)
    (hEq : f.sections = f.emitted) :
    f.KeepsOrder := by
  induction f using Fragment.induct with
  | module i p cs ihPackage ihChildren =>
      rw [unwritten_module_eq_nil_iff] at hWritten
      rcases hWritten with ⟨hInfo, hPackage, hChildren⟩
      rw [emitted_module] at hEq
      rw [sections, sectionsOption_eq_flatMap,
        sectionsList_eq_flatMap, hInfo, hChildren,
        List.nil_append, List.append_nil] at hEq hNodup
      have hParts := eq_of_flatMap_sections_eq hPackage hEq
      have hNodups := nodup_sections_of_flatMap hNodup
      rw [KeepsOrder, keepsOrderOption_iff]
      exact fun g hg =>
        ihPackage g hg (hPackage g hg) (hNodups g hg)
          (hParts g hg)
  | classifier i h m d ms x ihHeader ihImports ihMembers =>
      rw [unwritten_classifier_eq_nil_iff] at hWritten
      rcases hWritten with ⟨hHeader, hImports, hMembers⟩
      rw [emitted_classifier] at hEq
      rw [sections, sectionsOption_eq_flatMap,
        sectionsOption_eq_flatMap, sectionsList_eq_flatMap,
        List.append_assoc] at hEq hNodup
      have hH := flatMap_sections_perm hHeader
      have hM := flatMap_sections_perm hImports
      -- What stands in front of the members, and the members.
      have hSplit := List.append_inj hEq (by
        simp only [List.length_append, hH.length_eq,
          hM.length_eq]
        omega)
      have hMembersEq := List.append_cancel_right hSplit.2
      have hFrontEq := hSplit.1
      have hFrontNodup := (List.nodup_append.mp hNodup).1
      have hMembersNodup :=
        (List.nodup_append.mp
          (List.nodup_append.mp hNodup).2.1).1
      rw [List.append_assoc i.sections] at hFrontEq hFrontNodup
      have hPartsNodup := (List.nodup_append.mp hFrontNodup).2.1
      have hSwap := eq_nil_or_eq_nil_of_swap hFrontNodup
        (hH.append hM) hFrontEq
      -- In both cases header and imports keep their place.
      have hPartsEq :
          h.toList.flatMap sections ++
              m.toList.flatMap sections =
            h.toList.flatMap emitted ++
              m.toList.flatMap emitted := by
        rcases hSwap with hNone | hNone
        · rw [hNone, List.nil_append, List.append_nil]
            at hFrontEq
          exact hFrontEq
        · rw [hNone]
          exact ((hH.append hM).symm.trans
            (.of_eq hNone)).eq_nil.symm
      have hParts := List.append_inj hPartsEq hH.length_eq
      rw [KeepsOrder, keepsOrderOption_iff,
        keepsOrderOption_iff, keepsOrderList_iff,
        sectionsOption_eq_flatMap, sectionsOption_eq_flatMap]
      refine ⟨hSwap, fun g hg => ?_, fun g hg => ?_,
        fun g hg => ?_⟩
      · exact ihHeader g hg (hHeader g hg)
          (nodup_sections_of_flatMap
            (List.nodup_append.mp hPartsNodup).1 g hg)
          (eq_of_flatMap_sections_eq hHeader hParts.1 g hg)
      · exact ihImports g hg (hImports g hg)
          (nodup_sections_of_flatMap
            (List.nodup_append.mp hPartsNodup).2.1 g hg)
          (eq_of_flatMap_sections_eq hImports hParts.2 g hg)
      · exact ihMembers g hg (hMembers g hg)
          (nodup_sections_of_flatMap hMembersNodup g hg)
          (eq_of_flatMap_sections_eq hMembers hMembersEq g hg)
  | group i cs ihChildren =>
      rw [unwritten_group_eq_nil_iff] at hWritten
      rcases hWritten with ⟨hInfo, hChildren⟩
      rw [emitted_group] at hEq
      rw [sections, sectionsList_eq_flatMap, hInfo,
        List.nil_append] at hEq hNodup
      have hParts := eq_of_flatMap_sections_eq hChildren hEq
      have hNodups := nodup_sections_of_flatMap hNodup
      rw [KeepsOrder, keepsOrderList_iff]
      exact fun g hg =>
        ihChildren g hg (hChildren g hg) (hNodups g hg)
          (hParts g hg)
  | method i s a b =>
      rw [sections, Info.sections, List.append_assoc]
        at hEq hNodup
      rw [emitted_method] at hEq
      have hSwap := eq_nil_or_eq_nil_of_swap
        (List.nodup_append.mp hNodup).2.1
        (List.Perm.refl b.toList)
        (List.append_cancel_left hEq)
      rw [KeepsOrder]
      exact hSwap.imp_right Option.toList_eq_nil_iff.mp
  | simple i t =>
      exact trivial
  | template i s =>
      exact trivial

------------------------------------------------------------
-- Ids In The Order Of Writing
------------------------------------------------------------

/- If no id repeats, the ids tell the sections in order. -/
theorem eq_of_map_id_eq
    {left right : List Section}
    (hNodup : (left.map (fun s => s.id)).Nodup)
    (hSame : right ⊆ left)
    (hEq : left.map (fun s => s.id) =
      right.map (fun s => s.id)) :
    left = right := by
  have hLength : left.length = right.length := by
    rw [← List.length_map (fun s : Section => s.id), hEq,
      List.length_map]
  refine List.ext_getElem hLength (fun k hLeft hRight => ?_)
  refine List.inj_on_of_nodup_map hNodup
    (List.getElem_mem hLeft)
    (hSame (List.getElem_mem hRight)) ?_
  have hAt := congrArg (fun ids => ids[k]?) hEq
  simpa [List.getElem?_eq_getElem, hLeft, hRight] using hAt

/-
  The ids that are listed for a tree whose sections are all
  written are the written ones, each as often.  They are in
  the order of writing if the tree keeps the order, and if no
  id is repeated only then.
-/
theorem sectionIds_in_writing_order
    {f : Fragment}
    (hWritten : f.unwritten = []) :
    f.sectionIds.Perm f.emittedIds ∧
      (f.KeepsOrder → f.sectionIds = f.emittedIds) ∧
        (f.sectionIds.Nodup →
          (f.sectionIds = f.emittedIds ↔ f.KeepsOrder)) := by
  have hKept (hOrder : f.KeepsOrder) :
      f.sectionIds = f.emittedIds :=
    congrArg (List.map (fun s : Section => s.id))
      (sections_eq_emitted hWritten hOrder)
  refine ⟨(sections_perm_emitted hWritten).map _, hKept,
    fun hNodup => ⟨fun hEq => ?_, hKept⟩⟩
  exact keepsOrder_of_eq hWritten
    (List.Nodup.of_map _ hNodup)
    (eq_of_map_id_eq hNodup f.emitted_subset hEq)

/- The id of a section with the text of a method. -/
def bodyId : SectionId :=
  ⟨"body@run", by decide⟩

/- The id of a section behind a method. -/
def behindId : SectionId :=
  ⟨"behind@run", by decide⟩

/- A class with a method that has a body and a section after. -/
def trailedClass : Fragment :=
  .classifier
    { Info.new ⟨1⟩ "A" .classifier with
      before := [Section.empty ⟨"front@A", by decide⟩] }
    none none "class A"
    [.method
      { Info.new ⟨2⟩ "run" .method with
        after := [Section.empty behindId] }
      "void run()" false (some (Section.empty bodyId))]
    none

/- The section behind the method is listed before its body. -/
theorem sectionIds_in_writing_order_trailed :
    trailedClass.unwritten = [] ∧
      trailedClass.sectionIds.Perm trailedClass.emittedIds ∧
      trailedClass.sectionIds.drop 1 = [behindId, bodyId] ∧
      trailedClass.emittedIds.drop 1 = [bodyId, behindId] ∧
      ¬ trailedClass.KeepsOrder := by
  have hWritten : trailedClass.unwritten = [] :=
    rfl
  rcases sectionIds_in_writing_order hWritten with
    ⟨hPerm, hKept, _⟩
  refine ⟨hWritten, hPerm, rfl, rfl, fun hOrder => ?_⟩
  exact absurd (hKept hOrder) (by decide)

end Fragment

end Palimpsest
