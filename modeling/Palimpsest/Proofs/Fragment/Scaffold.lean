import Mathlib.Algebra.GroupWithZero.Nat
import Palimpsest.Proofs.Fragment.Emitted

/-
  Inline rendering is marked rendering without its scaffold.

  In the marked style every entry that a fragment adds to a
  writer is a generated line, a line of a template's source, a
  part of a section, or a spacer.  The scaffold is made of the
  markers of the sections and of the spacers.  In the inline
  style the fragment adds the same entries in the same order
  without the scaffold.

  Main declarations:
    * `SectionPart`
    * `Entry`
    * `Fragment.taggedEntries`
    * `Fragment.written`
    * `Fragment.write_without_scaffold`
-/

namespace Palimpsest

------------------------------------------------------------
-- Entries And Where They Come From
------------------------------------------------------------

/- The begin marker, a line, or the end marker of a section. -/
inductive SectionPart where
| opening (id : SectionId)
| content (text : String)
| closing (id : SectionId)
deriving DecidableEq

/- The parts of a section from marker to marker. -/
def Section.parts (s : Section) : List SectionPart :=
  .opening s.id ::
    (s.contents.map SectionPart.content ++ [.closing s.id])

/- An entry of a writer in the marked style. -/
inductive Entry where
| generated (depth : Nat) (text : String)
| source (text : String)
| part (depth : Nat) (p : SectionPart)
| spacer
deriving DecidableEq

namespace Entry

/- The text of an entry. -/
def text (unit : String) : Entry → String
| .generated depth text => Writer.indented unit depth text
| .source text => text
| .part depth (.opening id) =>
    Writer.indented unit depth (Marker.beginMarker id)
| .part _ (.content text) => text
| .part depth (.closing _) =>
    Writer.indented unit depth Marker.endMarker
| .spacer => ""

/- The part of a section that an entry is, if it is one. -/
def part? : Entry → Option SectionPart
| .part _ p => some p
| _ => none

/- Markers and spacers are the scaffold. -/
def isScaffold : Entry → Bool
| .part _ (.opening _) => true
| .part _ (.closing _) => true
| .spacer => true
| _ => false

/- The entries that are not part of the scaffold. -/
def withoutScaffold (entries : List Entry) : List Entry :=
  entries.filter (fun entry => !entry.isScaffold)

end Entry

------------------------------------------------------------
-- The Tagged Entries Of Items
------------------------------------------------------------

namespace Item

/- The entries of an item in the marked style. -/
def tagged : Item → List Entry
| .line depth text => [.generated depth text]
| .source text => [.source text]
| .region depth s => s.parts.map (Entry.part depth)
| .gap => [.spacer]

variable (unit : String)

/- In the marked style an item adds all its entries. -/
theorem entries_marked (item : Item) :
    item.entries .marked unit =
      item.tagged.map (Entry.text unit) := by
  cases item with
  | line depth text =>
      rfl
  | source text =>
      rfl
  | region depth s =>
      simp [entries, tagged, Section.parts, Entry.text,
        Function.comp_def]
  | gap =>
      rfl

/- In the inline style it leaves out the scaffold. -/
theorem entries_inline (item : Item) :
    item.entries .inline unit =
      (Entry.withoutScaffold item.tagged).map
        (Entry.text unit) := by
  cases item with
  | line depth text =>
      rfl
  | source text =>
      rfl
  | region depth s =>
      have hContents :
          Entry.withoutScaffold
              (s.contents.map (fun text =>
                Entry.part depth (.content text))) =
            s.contents.map (fun text =>
              Entry.part depth (.content text)) := by
        simp [Entry.withoutScaffold, List.filter_eq_self,
          Entry.isScaffold]
      have hParts :
          Entry.withoutScaffold
              (s.parts.map (Entry.part depth)) =
            s.contents.map (fun text =>
              Entry.part depth (.content text)) := by
        rw [← hContents]
        simp [Entry.withoutScaffold, Section.parts,
          Entry.isScaffold, Function.comp_def]
      rw [entries, tagged, hParts, List.map_map]
      simp [Entry.text, Function.comp_def]
  | gap =>
      rfl

/- The section parts of an item are those of its section. -/
theorem parts_tagged (item : Item) :
    item.tagged.filterMap Entry.part? =
      item.region?.toList.flatMap Section.parts := by
  cases item with
  | line depth text =>
      rfl
  | source text =>
      rfl
  | region depth s =>
      simp [tagged, region?, List.filterMap_map, Entry.part?,
        Function.comp_def]
  | gap =>
      rfl

/- The section parts among items, section by section. -/
theorem parts_flatMap_tagged (items : List Item) :
    (items.flatMap tagged).filterMap Entry.part? =
      (regions items).flatMap Section.parts := by
  induction items with
  | nil =>
      rfl
  | cons item items ih =>
      rw [List.flatMap_cons, List.filterMap_append, ih,
        parts_tagged]
      cases hRegion : item.region? with
      | none =>
          simp [regions, hRegion]
      | some s =>
          simp [regions, hRegion]

/- The spacers among items. -/
def spacers (items : List Item) : Nat :=
  (items.flatMap tagged).count .spacer

/- The spacers among two lists of items. -/
@[simp]
theorem spacers_append (items more : List Item) :
    spacers (items ++ more) = spacers items + spacers more := by
  unfold spacers
  rw [List.flatMap_append, List.count_append]

@[simp]
theorem spacers_gap : spacers [gap] = 1 :=
  rfl

@[simp]
theorem spacers_line (depth : Nat) (text : String) :
    spacers [line depth text] = 0 :=
  rfl

/- Items that are no gaps add no spacer. -/
theorem spacers_map_of_forall
    {α : Type}
    {xs : List α}
    {item : α → Item}
    (hItem : ∀ x ∈ xs, .spacer ∉ (item x).tagged) :
    spacers (xs.map item) = 0 := by
  unfold spacers
  rw [List.count_eq_zero, List.flatMap_map, List.mem_flatMap]
  rintro ⟨x, hx, hSpacer⟩
  exact hItem x hx hSpacer

/- Generated lines add no spacer. -/
@[simp]
theorem spacers_map_line (depth : Nat) (texts : List String) :
    spacers (texts.map (line depth)) = 0 :=
  spacers_map_of_forall (by simp [tagged])

/- Sections add no spacer. -/
@[simp]
theorem spacers_map_region
    (depth : Nat)
    (sections : List Section) :
    spacers (sections.map (region depth)) = 0 :=
  spacers_map_of_forall (by simp [tagged])

end Item

------------------------------------------------------------
-- The Spacers Of A Fragment
------------------------------------------------------------

namespace Info

/- One spacer for a doc block, if there is one. -/
def docSpacers (i : Info) : Nat :=
  match i.documentation with
  | none => 0
  | some _ => 1

/- A doc block is followed by one spacer. -/
theorem spacers_prologueItems
    (depth : Nat)
    (i : Info) :
    Item.spacers (i.prologueItems depth) = i.docSpacers := by
  have hDocumentation :
      Item.spacers (i.documentationItems depth) =
        i.docSpacers := by
    unfold documentationItems docSpacers
    cases i.documentation with
    | none =>
        rfl
    | some text =>
        simp
  simp [prologueItems, hDocumentation]

theorem spacers_afterItems
    (depth : Nat)
    (i : Info) :
    Item.spacers (i.afterItems depth) = 0 :=
  Item.spacers_map_region depth i.after

end Info

namespace Fragment

theorem spacers_bodyItems
    (depth : Nat)
    (signature : String)
    (body : Option Section) :
    Item.spacers (bodyItems depth signature body) = 0 := by
  cases body with
  | none =>
      rfl
  | some s =>
      simp [bodyItems, Item.spacers, Item.tagged,
        List.count_eq_zero]

theorem spacers_sourceItems (source : String) :
    Item.spacers (sourceItems source) = 0 := by
  unfold sourceItems
  split
  · rfl
  · exact Item.spacers_map_of_forall (by simp [Item.tagged])

mutual

/-
  The fragments that writing a fragment writes, itself
  included.  The children of a module are not among them.
-/
def written : Fragment → List Fragment
| .module i p cs => .module i p cs :: writtenOption p
| .classifier i h m d ms x =>
    .classifier i h m d ms x ::
      (writtenOption h ++ writtenOption m ++ writtenList ms)
| .group i cs => .group i cs :: writtenList cs
| .method i s a b => [.method i s a b]
| .simple i t => [.simple i t]
| .template i s => [.template i s]

/- What writing an optional fragment writes. -/
def writtenOption : Option Fragment → List Fragment
| none => []
| some f => written f

/- What writing a list of fragments writes. -/
def writtenList : List Fragment → List Fragment
| [] => []
| f :: fs => written f ++ writtenList fs

end

/- What writing a list writes, fragment by fragment. -/
theorem writtenList_eq_flatMap (fs : List Fragment) :
    writtenList fs = fs.flatMap written := by
  induction fs with
  | nil =>
      rfl
  | cons f fs ih =>
      rw [writtenList, ih, List.flatMap_cons]

/- What writing an optional fragment writes, as of a list. -/
theorem writtenOption_eq_flatMap (f : Option Fragment) :
    writtenOption f = f.toList.flatMap written := by
  cases f <;> simp [writtenOption]

/-
  The spacers of a fragment itself: one after its doc block,
  if that is written, and one after a method or a simple
  fragment.
-/
def ownSpacers : Fragment → Nat
| .module _ _ _ => 0
| .classifier i _ _ _ _ _ => i.docSpacers
| .group _ _ => 0
| .method i _ _ _ => i.docSpacers + 1
| .simple i _ => i.docSpacers + 1
| .template _ _ => 0

/- The spacers of all fragments that are written. -/
def spacers (f : Fragment) : Nat :=
  (f.written.map ownSpacers).sum

/- The spacers of the parts of a fragment, part by part. -/
theorem spacers_flatMap_items
    {fs : List Fragment}
    (hParts : ∀ f ∈ fs, ∀ depth,
      Item.spacers (f.items depth) = f.spacers)
    (depth : Nat) :
    Item.spacers (fs.flatMap (items depth)) =
      ((fs.flatMap written).map ownSpacers).sum := by
  induction fs with
  | nil =>
      rfl
  | cons f fs ih =>
      rw [List.forall_mem_cons] at hParts
      rw [List.flatMap_cons, Item.spacers_append,
        hParts.1 depth, ih hParts.2, List.flatMap_cons,
        List.map_append, List.sum_append]
      rfl

/- Writing adds exactly these spacers, at any depth. -/
theorem spacers_items
    (f : Fragment)
    (depth : Nat) :
    Item.spacers (f.items depth) = f.spacers := by
  induction f using Fragment.induct generalizing depth with
  | module i p cs ihPackage ihChildren =>
      have hPackage := spacers_flatMap_items ihPackage depth
      simp only [items, spacers, written,
        itemsOption_eq_flatMap, writtenOption_eq_flatMap,
        List.map_cons, List.sum_cons, ownSpacers, hPackage]
      omega
  | classifier i h m d ms x ihHeader ihImports ihMembers =>
      have hHeader := spacers_flatMap_items ihHeader depth
      have hImports := spacers_flatMap_items ihImports depth
      have hMembers :=
        spacers_flatMap_items ihMembers (depth + 1)
      simp only [items, spacers, written,
        itemsOption_eq_flatMap, itemsList_eq_flatMap,
        writtenOption_eq_flatMap, writtenList_eq_flatMap,
        Item.spacers_append, Info.spacers_prologueItems,
        Info.spacers_afterItems, Item.spacers_line,
        Item.spacers_map_region, List.map_cons,
        List.map_append, List.sum_cons, List.sum_append,
        ownSpacers, hHeader, hImports, hMembers]
      omega
  | group i cs ihChildren =>
      have hChildren := spacers_flatMap_items ihChildren depth
      simp only [items, spacers, written,
        itemsList_eq_flatMap, writtenList_eq_flatMap,
        List.map_cons, List.sum_cons, ownSpacers, hChildren]
      omega
  | method i s a b =>
      simp [items, spacers, written, ownSpacers,
        Info.spacers_prologueItems, spacers_bodyItems,
        Info.spacers_afterItems]
  | simple i t =>
      simp [items, spacers, written, ownSpacers,
        Info.spacers_prologueItems, Info.spacers_afterItems]
  | template i s =>
      rw [items, spacers_sourceItems]
      rfl

------------------------------------------------------------
-- The Two Renderings
------------------------------------------------------------

/- What writing adds in the marked style, entry by entry. -/
def taggedEntries
    (depth : Nat)
    (f : Fragment) : List Entry :=
  (f.items depth).flatMap Item.tagged

/-
  The marked style adds to a writer the parts of every written
  section in order, one spacer for each written doc block,
  method and simple fragment, and generated lines.  The inline
  style adds the same entries without markers and spacers, and
  both leave the unit and the depth of the writer.
-/
theorem write_without_scaffold
    (f : Fragment)
    (w : Writer) :
    (f.write .marked w).lines.toList =
      w.lines.toList ++
        (f.taggedEntries w.depth).map (Entry.text w.unit) ∧
    (f.write .inline w).lines.toList =
      w.lines.toList ++
        (Entry.withoutScaffold (f.taggedEntries w.depth)).map
          (Entry.text w.unit) ∧
    (f.taggedEntries w.depth).filterMap Entry.part? =
      f.emitted.flatMap Section.parts ∧
    (f.taggedEntries w.depth).count .spacer = f.spacers ∧
    ∀ style,
      (f.write style w).unit = w.unit ∧
        (f.write style w).depth = w.depth := by
  refine ⟨?_, ?_, ?_, spacers_items f w.depth, ?_⟩
  · rw [write_eq_add, Writer.lines_add, taggedEntries,
      List.map_flatMap, ← funext (Item.entries_marked w.unit)]
    exact Array.toList_append
  · rw [write_eq_add, Writer.lines_add, taggedEntries,
      Entry.withoutScaffold, List.filter_flatMap,
      List.map_flatMap]
    simp only [Array.toList_append]
    congr 1
    exact List.flatMap_congr
      (fun item _ => Item.entries_inline w.unit item)
  · rw [taggedEntries, Item.parts_flatMap_tagged,
      regions_items]
  · intro style
    rw [write_eq_add]
    exact ⟨Writer.unit_add style w _,
      Writer.depth_add style w _⟩

end Fragment

end Palimpsest
