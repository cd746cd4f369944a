import Palimpsest.Proofs.Fragment.Items

/-
  Which sections of a fragment tree are written.

  The walk over the sections of a tree meets more sections
  than writing the tree does.  The sections around a module, a
  group or a template are met and never written, and so are
  all sections of a module's children, which have files of
  their own.  Every section that is met is either written or
  one of these.

  Main declarations:
    * `Fragment.emitted`
    * `Fragment.regions_items`
    * `Fragment.unwritten`
    * `Fragment.sections_perm`
    * `Fragment.render_mapSections_congr`
    * `Fragment.HasPlainText`
-/

namespace Palimpsest

------------------------------------------------------------
-- Sections And Texts Among Items
------------------------------------------------------------

namespace Item

/- The sections among items, in order. -/
def regions (items : List Item) : List Section :=
  items.filterMap region?

/- The sections among two lists of items. -/
theorem regions_append (items more : List Item) :
    regions (items ++ more) = regions items ++ regions more :=
  List.filterMap_append

/- Generated lines are no sections. -/
theorem regions_map_line
    (depth : Nat)
    (texts : List String) :
    regions (texts.map (line depth)) = [] := by
  simp [regions, List.filterMap_map, region?]

/- The sections of section items. -/
theorem regions_map_region
    (depth : Nat)
    (sections : List Section) :
    regions (sections.map (region depth)) = sections := by
  unfold regions
  rw [List.filterMap_map]
  exact List.filterMap_some

/- The section of a changed item. -/
theorem region?_mapSection
    (change : Section → Section)
    (item : Item) :
    (item.mapSection change).region? =
      item.region?.map change := by
  cases item <;> rfl

/- The sections among changed items. -/
theorem regions_map_mapSection
    (change : Section → Section)
    (items : List Item) :
    regions (items.map (mapSection change)) =
      (regions items).map change := by
  unfold regions
  rw [List.filterMap_map, List.map_filterMap]
  exact List.filterMap_congr
    (fun item _ => region?_mapSection change item)

/- A change of sections leaves the generated lines. -/
theorem generated_mapSection
    (change : Section → Section)
    (item : Item) :
    (item.mapSection change).generated = item.generated := by
  cases item <;> rfl

end Item

namespace Info

/- The sections before a fragment are written in order. -/
theorem regions_prologueItems
    (depth : Nat)
    (i : Info) :
    Item.regions (i.prologueItems depth) = i.before := by
  have hDocumentation :
      Item.regions (i.documentationItems depth) = [] := by
    unfold documentationItems
    cases i.documentation with
    | none =>
        rfl
    | some text =>
        dsimp only
        rw [Item.regions_append, Item.regions_map_line]
        rfl
  unfold prologueItems
  rw [Item.regions_append, Item.regions_append,
    hDocumentation, Item.regions_map_line,
    Item.regions_map_region]
  rfl

/- The sections after a fragment are written in order. -/
theorem regions_afterItems
    (depth : Nat)
    (i : Info) :
    Item.regions (i.afterItems depth) = i.after :=
  Item.regions_map_region depth i.after

end Info

namespace Fragment

/- A body is written once, if there is one. -/
theorem regions_bodyItems
    (depth : Nat)
    (signature : String)
    (body : Option Section) :
    Item.regions (bodyItems depth signature body) =
      body.toList := by
  cases body <;> rfl

/- A template's source holds no sections. -/
theorem regions_sourceItems (source : String) :
    Item.regions (sourceItems source) = [] := by
  unfold sourceItems
  split
  · rfl
  · simp [Item.regions, List.filterMap_map, Item.region?]

------------------------------------------------------------
-- Written And Unwritten Sections
------------------------------------------------------------

/- The sections that writing a fragment writes, in order. -/
def emitted (f : Fragment) : List Section :=
  Item.regions (f.items 0)

/- The written sections of parts, part by part. -/
theorem regions_flatMap_items
    {fs : List Fragment}
    (hParts : ∀ f ∈ fs, ∀ depth,
      Item.regions (f.items depth) = f.emitted)
    (depth : Nat) :
    Item.regions (fs.flatMap (items depth)) =
      fs.flatMap emitted := by
  unfold Item.regions
  rw [List.filterMap_flatMap]
  exact List.flatMap_congr (fun f hf => hParts f hf depth)

/- The depth does not matter for which sections are written. -/
theorem regions_items
    (f : Fragment)
    (depth : Nat) :
    Item.regions (f.items depth) = f.emitted := by
  induction f using Fragment.induct generalizing depth with
  | module i p cs ihPackage ihChildren =>
      have hPackage := regions_flatMap_items ihPackage
      simp only [emitted, items, itemsOption_eq_flatMap,
        hPackage]
  | classifier i h m d ms x ihHeader ihImports ihMembers =>
      have hHeader := regions_flatMap_items ihHeader
      have hImports := regions_flatMap_items ihImports
      have hMembers := regions_flatMap_items ihMembers
      have hLine (depth : Nat) (text : String) :
          Item.regions [.line depth text] = [] :=
        rfl
      simp only [emitted, items, itemsOption_eq_flatMap,
        itemsList_eq_flatMap, Item.regions_append, hHeader,
        hImports, hMembers, Info.regions_prologueItems,
        Info.regions_afterItems, Item.regions_map_region,
        hLine]
  | group i cs ihChildren =>
      have hChildren := regions_flatMap_items ihChildren
      simp only [emitted, items, itemsList_eq_flatMap,
        hChildren]
  | method i s a b =>
      simp only [emitted, items, Item.regions_append,
        Info.regions_prologueItems, Info.regions_afterItems,
        regions_bodyItems]
  | simple i t =>
      simp only [emitted, items, Item.regions_append,
        Info.regions_prologueItems, Info.regions_afterItems,
        Item.regions_map_line]
  | template i s =>
      rfl

mutual

/- The sections that are met by the walk and not written. -/
def unwritten : Fragment → List Section
| .module i p cs =>
    i.sections ++ unwrittenOption p ++ sectionsList cs
| .classifier _ h m _ ms _ =>
    unwrittenOption h ++ unwrittenOption m ++
      unwrittenList ms
| .group i cs => i.sections ++ unwrittenList cs
| .method _ _ _ _ => []
| .simple _ _ => []
| .template i _ => i.sections

/- The unwritten sections of an optional fragment. -/
def unwrittenOption : Option Fragment → List Section
| none => []
| some f => unwritten f

/- The unwritten sections of a list of fragments. -/
def unwrittenList : List Fragment → List Section
| [] => []
| f :: fs => unwritten f ++ unwrittenList fs

end

/- The unwritten sections of a list, part by part. -/
theorem unwrittenList_eq_flatMap (fs : List Fragment) :
    unwrittenList fs = fs.flatMap unwritten := by
  induction fs with
  | nil =>
      rfl
  | cons f fs ih =>
      rw [unwrittenList, ih, List.flatMap_cons]

/- The unwritten sections of a part, as of a list. -/
theorem unwrittenOption_eq_flatMap (f : Option Fragment) :
    unwrittenOption f = f.toList.flatMap unwritten := by
  cases f <;> simp [unwrittenOption]

/- Every part of a list is either written or not. -/
theorem count_flatMap_sections
    {s : Section}
    {fs : List Fragment}
    (hParts : ∀ f ∈ fs, ∀ depth,
      f.sections.count s =
        (Item.regions (f.items depth)).count s +
          f.unwritten.count s)
    (depth : Nat) :
    (fs.flatMap sections).count s =
      (Item.regions (fs.flatMap (items depth))).count s +
        (fs.flatMap unwritten).count s := by
  induction fs with
  | nil =>
      rfl
  | cons f fs ih =>
      rw [List.forall_mem_cons] at hParts
      have hFirst := hParts.1 depth
      have hRest := ih hParts.2
      simp only [List.flatMap_cons, Item.regions_append,
        List.count_append]
      omega

/-
  Each section that the walk meets is written or not, as often
  as it is met and at any depth.
-/
theorem count_sections
    (s : Section)
    (f : Fragment)
    (depth : Nat) :
    f.sections.count s =
      (Item.regions (f.items depth)).count s +
        f.unwritten.count s := by
  induction f using Fragment.induct generalizing depth with
  | module i p cs ihPackage ihChildren =>
      have hPackage := count_flatMap_sections ihPackage depth
      simp only [sections, items, unwritten,
        sectionsOption_eq_flatMap, sectionsList_eq_flatMap,
        itemsOption_eq_flatMap, unwrittenOption_eq_flatMap,
        List.count_append]
      omega
  | classifier i h m d ms x ihHeader ihImports ihMembers =>
      have hHeader := count_flatMap_sections ihHeader depth
      have hImports := count_flatMap_sections ihImports depth
      have hMembers :=
        count_flatMap_sections ihMembers (depth + 1)
      have hLine (text : String) :
          Item.regions [.line depth text] = [] :=
        rfl
      simp only [sections, items, unwritten,
        sectionsOption_eq_flatMap, sectionsList_eq_flatMap,
        itemsOption_eq_flatMap, itemsList_eq_flatMap,
        unwrittenOption_eq_flatMap, unwrittenList_eq_flatMap,
        Info.sections, Item.regions_append,
        Info.regions_prologueItems, Info.regions_afterItems,
        Item.regions_map_region, hLine, List.count_append,
        List.count_nil]
      omega
  | group i cs ihChildren =>
      have hChildren := count_flatMap_sections ihChildren depth
      simp only [sections, items, unwritten,
        sectionsList_eq_flatMap, itemsList_eq_flatMap,
        unwrittenList_eq_flatMap, List.count_append]
      omega
  | method i s' a b =>
      have hGap : Item.regions [.gap] = [] :=
        rfl
      simp only [sections, items, unwritten, Info.sections,
        Item.regions_append, Info.regions_prologueItems,
        Info.regions_afterItems, regions_bodyItems, hGap,
        List.count_append, List.count_nil]
      omega
  | simple i t =>
      have hGap : Item.regions [.gap] = [] :=
        rfl
      simp only [sections, items, unwritten, Info.sections,
        Item.regions_append, Info.regions_prologueItems,
        Info.regions_afterItems, Item.regions_map_line, hGap,
        List.count_append, List.count_nil]
      omega
  | template i source =>
      simp only [sections, items, unwritten,
        regions_sourceItems, List.count_nil]
      omega

/-
  The sections of a tree are the written ones and the
  unwritten ones.
-/
theorem sections_perm (f : Fragment) :
    f.sections.Perm (f.emitted ++ f.unwritten) := by
  rw [List.perm_iff_count]
  intro s
  rw [List.count_append]
  exact count_sections s f 0

/- Written sections are sections of the tree. -/
theorem emitted_subset (f : Fragment) :
    f.emitted ⊆ f.sections := by
  intro s hs
  rw [f.sections_perm.mem_iff]
  exact List.mem_append_left _ hs

/- The ids of the sections that are written, in order. -/
def emittedIds (f : Fragment) : List SectionId :=
  f.emitted.map (fun s => s.id)

/- The ids of the sections that are not written. -/
def unwrittenIds (f : Fragment) : List SectionId :=
  f.unwritten.map (fun s => s.id)

/- The ids of a tree are the written and the unwritten ones. -/
theorem sectionIds_perm (f : Fragment) :
    f.sectionIds.Perm (f.emittedIds ++ f.unwrittenIds) := by
  have hPerm := f.sections_perm.map (fun s => s.id)
  rw [List.map_append] at hPerm
  exact hPerm

/- Written ids are ids of the tree. -/
theorem emittedIds_subset (f : Fragment) :
    f.emittedIds ⊆ f.sectionIds :=
  List.map_subset _ f.emitted_subset

/- Unique ids are unique among the written ones. -/
theorem nodup_emittedIds
    {f : Fragment}
    (hIds : f.sectionIds.Nodup) :
    f.emittedIds.Nodup := by
  rw [f.sectionIds_perm.nodup_iff] at hIds
  exact (List.nodup_append.mp hIds).1

/-
  If ids are unique, one of the tree is written exactly when
  it is not one of the unwritten ones.
-/
theorem mem_emittedIds_iff
    {f : Fragment}
    (hIds : f.sectionIds.Nodup)
    {id : SectionId}
    (hId : id ∈ f.sectionIds) :
    id ∈ f.emittedIds ↔ id ∉ f.unwrittenIds := by
  rw [f.sectionIds_perm.nodup_iff] at hIds
  rw [f.sectionIds_perm.mem_iff, List.mem_append] at hId
  constructor
  · intro hEmitted hUnwritten
    exact (List.nodup_append.mp hIds).2.2 id hEmitted id
      hUnwritten rfl
  · intro hNot
    exact hId.resolve_right hNot

/- Changing sections changes the written ones. -/
theorem emitted_mapSections
    (change : Section → Section)
    (f : Fragment) :
    (f.mapSections change).emitted =
      f.emitted.map change := by
  unfold emitted
  rw [items_mapSections, Item.regions_map_mapSection]

/-
  Two changes that agree on the written sections give the same
  text.
-/
theorem render_mapSections_congr
    {change other : Section → Section}
    {f : Fragment}
    (hSame : ∀ s ∈ f.emitted, change s = other s)
    (unit : String)
    (style : SectionStyle) :
    (f.mapSections change).render unit style =
      (f.mapSections other).render unit style := by
  have hItems :
      (f.items 0).map (Item.mapSection change) =
        (f.items 0).map (Item.mapSection other) := by
    apply List.map_congr_left
    intro item hItem
    cases item with
    | line depth text =>
        rfl
    | source text =>
        rfl
    | region depth s =>
        have hWritten : s ∈ f.emitted :=
          List.mem_filterMap.mpr ⟨_, hItem, rfl⟩
        simp only [Item.mapSection, hSame s hWritten]
    | gap =>
        rfl
  rw [render_eq_unlines, render_eq_unlines,
    items_mapSections, items_mapSections, hItems]

------------------------------------------------------------
-- Generated Lines
------------------------------------------------------------

/- The generated lines of a fragment, without indentation. -/
def generatedLines (f : Fragment) : List String :=
  (f.items 0).flatMap Item.generated

/- No generated line is a begin marker. -/
def HasPlainText (f : Fragment) : Prop :=
  ∀ line ∈ f.generatedLines, ¬ Marker.IsBegin line

instance (f : Fragment) : Decidable f.HasPlainText :=
  List.decidableBAll _ f.generatedLines

/- A change of sections leaves the generated lines. -/
theorem generatedLines_mapSections
    (change : Section → Section)
    (f : Fragment) :
    (f.mapSections change).generatedLines =
      f.generatedLines := by
  unfold generatedLines
  rw [items_mapSections, List.flatMap_map]
  exact List.flatMap_congr
    (fun item _ => Item.generated_mapSection change item)

/- A change of sections leaves plain text plain. -/
theorem HasPlainText.mapSections
    {f : Fragment}
    (hText : f.HasPlainText)
    (change : Section → Section) :
    (f.mapSections change).HasPlainText := by
  unfold HasPlainText
  rw [generatedLines_mapSections]
  exact hText

end Fragment

end Palimpsest
