import Palimpsest.Fragment.Render
import Palimpsest.Proofs.Fragment.Change

/-
  What a fragment writes, item by item.

  Writing a fragment adds items to a writer: generated lines,
  lines of a template's source, sections, and gaps between
  neighbours.  Which items a fragment adds depends only on the
  fragment and the depth; how an item looks depends on the
  style and the indentation unit.  Writing returns to the
  depth that it started from.

  Main declarations:
    * `Item`
    * `Item.entries`
    * `Writer.add`
    * `Fragment.items`
    * `Fragment.write_eq_add`
    * `Fragment.items_mapSections`
-/

namespace Palimpsest

------------------------------------------------------------
-- Items
------------------------------------------------------------

/-
  A generated line at a depth, a line of a template's source,
  a section whose markers stand at a depth, or a gap.
-/
inductive Item where
| line (depth : Nat) (text : String)
| source (text : String)
| region (depth : Nat) (s : Section)
| gap

namespace Item

/- The entries that a writer gets for an item. -/
def entries
    (style : SectionStyle)
    (unit : String) : Item → List String
| .line depth text => [Writer.indented unit depth text]
| .source text => [text]
| .region depth s =>
    match style with
    | .marked =>
        Writer.indented unit depth (Marker.beginMarker s.id) ::
          (s.contents ++
            [Writer.indented unit depth Marker.endMarker])
    | .inline => s.contents
| .gap =>
    match style with
    | .marked => [""]
    | .inline => []

/- The section of an item, if it is one. -/
def region? : Item → Option Section
| .region _ s => some s
| _ => none

/- The generated lines of an item, without indentation. -/
def generated : Item → List String
| .line _ text => Text.lines text
| .source text => Text.lines text
| _ => []

/- Change the section of an item, if it is one. -/
def mapSection (change : Section → Section) : Item → Item
| .region depth s => .region depth (change s)
| item => item

end Item

------------------------------------------------------------
-- Adding Items To A Writer
------------------------------------------------------------

namespace Writer

/- Add items one after another. -/
def add
    (style : SectionStyle)
    (items : List Item)
    (w : Writer) : Writer :=
  w.verbatimAll (items.flatMap (Item.entries style w.unit))

/- Adding lines as they are puts them after the others. -/
theorem verbatimAll_eq
    (texts : List String)
    (w : Writer) :
    w.verbatimAll texts =
      { w with lines := w.lines ++ texts.toArray } := by
  induction texts generalizing w with
  | nil =>
      simp [verbatimAll]
  | cons text texts ih =>
      have hStep :
          w.verbatimAll (text :: texts) =
            (w.verbatim text).verbatimAll texts :=
        rfl
      rw [hStep, ih]
      simp [verbatim]

variable (style : SectionStyle) (w : Writer)

/- Adding items leaves the indentation unit. -/
@[simp]
theorem unit_add (items : List Item) :
    (w.add style items).unit = w.unit := by
  rw [add, verbatimAll_eq]

/- Adding items leaves the depth. -/
@[simp]
theorem depth_add (items : List Item) :
    (w.add style items).depth = w.depth := by
  rw [add, verbatimAll_eq]

/- The lines after adding items. -/
theorem lines_add (items : List Item) :
    (w.add style items).lines =
      w.lines ++
        (items.flatMap (Item.entries style w.unit)).toArray := by
  rw [add, verbatimAll_eq]

/- Items can be added in two steps. -/
theorem add_append (items more : List Item) :
    w.add style (items ++ more) =
      (w.add style items).add style more := by
  simp only [add, verbatimAll_eq, List.flatMap_append]
  simp

/- Items are added one after another. -/
theorem add_cons (item : Item) (items : List Item) :
    w.add style (item :: items) =
      (w.add style [item]).add style items := by
  rw [← add_append, List.singleton_append]

/-
  Items added one level deeper: going back afterwards restores
  the depth.
-/
theorem outdent_add_indent (items : List Item) :
    (w.indent.add style items).outdent =
      w.add style items := by
  simp [add, verbatimAll_eq, indent, outdent]

------------------------------------------------------------
-- The Steps Of A Writer As Items
------------------------------------------------------------

/- A line is one item. -/
theorem line_eq_add (text : String) :
    w.line text = w.add style [.line w.depth text] := by
  rfl

/- Lines are one item each. -/
theorem lineAll_eq_add (texts : List String) :
    w.lineAll texts =
      w.add style (texts.map (Item.line w.depth)) := by
  induction texts generalizing w with
  | nil =>
      rfl
  | cons text texts ih =>
      have hStep :
          w.lineAll (text :: texts) =
            (w.line text).lineAll texts :=
        rfl
      rw [hStep, ih, List.map_cons, add_cons, ← line_eq_add]
      rfl

/- The lines of a text are one item each. -/
theorem block_eq_add (text : String) :
    w.block text =
      w.add style
        ((Text.lines text).map (Item.line w.depth)) :=
  lineAll_eq_add style w (Text.lines text)

/- A section is one item. -/
theorem writeSection_eq_add (s : Section) :
    w.writeSection style s =
      w.add style [.region w.depth s] := by
  cases style with
  | marked =>
      simp [writeSection, line, verbatim, add,
        verbatimAll_eq, Item.entries]
  | inline =>
      simp [writeSection, add, Item.entries]

/- Sections are one item each. -/
theorem writeSections_eq_add (sections : List Section) :
    w.writeSections style sections =
      w.add style (sections.map (Item.region w.depth)) := by
  induction sections generalizing w with
  | nil =>
      rfl
  | cons s sections ih =>
      have hStep :
          w.writeSections style (s :: sections) =
            (w.writeSection style s).writeSections
              style sections :=
        rfl
      rw [hStep, ih, List.map_cons, add_cons,
        ← writeSection_eq_add, writeSection_eq_add style,
        depth_add]

/- A spacer is one item. -/
theorem spacer_eq_add :
    w.spacer style = w.add style [.gap] := by
  cases style <;> rfl

end Writer

------------------------------------------------------------
-- The Items Of A Fragment
------------------------------------------------------------

namespace Info

/- The items of the documentation. -/
def documentationItems
    (depth : Nat)
    (i : Info) : List Item :=
  match i.documentation with
  | none => []
  | some text =>
      (Text.lines text).map (Item.line depth) ++ [.gap]

/- The items before a fragment. -/
def prologueItems
    (depth : Nat)
    (i : Info) : List Item :=
  i.documentationItems depth ++
    i.annotations.map (Item.line depth) ++
      i.before.map (Item.region depth)

/- The items after a fragment. -/
def afterItems
    (depth : Nat)
    (i : Info) : List Item :=
  i.after.map (Item.region depth)

end Info

namespace Fragment

/- The items of a signature with its body. -/
def bodyItems
    (depth : Nat)
    (signature : String)
    (body : Option Section) : List Item :=
  match body with
  | some s =>
      [.line depth (signature ++ " \x7b"),
        .region (depth + 1) s, .line depth "\x7d"]
  | none => [.line depth (signature ++ ";")]

/- The items of a template's source. -/
def sourceItems (source : String) : List Item :=
  if source = "" then
    []
  else
    (Text.lines source).map Item.source

mutual

/- The items that a fragment adds at a depth. -/
def items (depth : Nat) : Fragment → List Item
| .module _ p _ => itemsOption depth p
| .classifier i h m d ms x =>
    itemsOption depth h ++ itemsOption depth m ++
      i.prologueItems depth ++
        [.line depth (d ++ " \x7b")] ++
          i.afterItems (depth + 1) ++
            itemsList (depth + 1) ms ++
              x.toList.map (Item.region depth) ++
                [.line depth "\x7d"]
| .group _ cs => itemsList depth cs
| .method i s _ b =>
    i.prologueItems depth ++ bodyItems depth s b ++
      i.afterItems depth ++ [.gap]
| .simple i t =>
    i.prologueItems depth ++
      (Text.lines t).map (Item.line depth) ++
        i.afterItems depth ++ [.gap]
| .template _ s => sourceItems s

/- The items of an optional fragment. -/
def itemsOption (depth : Nat) : Option Fragment → List Item
| none => []
| some f => items depth f

/- The items of a list of fragments. -/
def itemsList (depth : Nat) : List Fragment → List Item
| [] => []
| f :: fs => items depth f ++ itemsList depth fs

end

/- The items of a list, fragment by fragment. -/
theorem itemsList_eq_flatMap
    (depth : Nat)
    (fs : List Fragment) :
    itemsList depth fs = fs.flatMap (items depth) := by
  induction fs with
  | nil =>
      rfl
  | cons f fs ih =>
      rw [itemsList, ih, List.flatMap_cons]

/- The items of an optional fragment, as of a list. -/
theorem itemsOption_eq_flatMap
    (depth : Nat)
    (f : Option Fragment) :
    itemsOption depth f = f.toList.flatMap (items depth) := by
  cases f <;> simp [itemsOption]

end Fragment

------------------------------------------------------------
-- Writing Adds The Items
------------------------------------------------------------

namespace Info

variable (style : SectionStyle) (i : Info) (w : Writer)

/- Writing the documentation adds its items. -/
theorem writeDocumentation_eq_add :
    i.writeDocumentation style w =
      w.add style (i.documentationItems w.depth) := by
  unfold writeDocumentation documentationItems
  cases i.documentation with
  | none =>
      rfl
  | some text =>
      dsimp only
      rw [Writer.block_eq_add style, Writer.spacer_eq_add,
        ← Writer.add_append]

/- Writing what stands before a fragment adds its items. -/
theorem writePrologue_eq_add :
    i.writePrologue style w =
      w.add style (i.prologueItems w.depth) := by
  unfold writePrologue prologueItems
  rw [writeDocumentation_eq_add, Writer.lineAll_eq_add style,
    Writer.writeSections_eq_add]
  simp only [Writer.depth_add, Writer.add_append]

/- Writing what stands after a fragment adds its items. -/
theorem writeAfter_eq_add :
    i.writeAfter style w =
      w.add style (i.afterItems w.depth) :=
  Writer.writeSections_eq_add style w i.after

end Info

namespace Fragment

variable (style : SectionStyle)

/- Writing a signature with its body adds its items. -/
theorem writeBody_eq_add
    (signature : String)
    (body : Option Section)
    (w : Writer) :
    writeBody style signature body w =
      w.add style (bodyItems w.depth signature body) := by
  cases body with
  | none =>
      rfl
  | some s =>
      unfold writeBody bodyItems
      dsimp only
      rw [Writer.writeSection_eq_add,
        Writer.outdent_add_indent, Writer.line_eq_add style,
        Writer.line_eq_add style w, ← Writer.add_append,
        ← Writer.add_append]
      simp [Writer.indent]

/- Writing the source of a template adds its items. -/
theorem writeSource_eq_add
    (source : String)
    (w : Writer) :
    writeSource source w =
      w.add style (sourceItems source) := by
  unfold writeSource sourceItems
  split
  · rfl
  · unfold Writer.add
    congr 1
    rw [List.flatMap_map]
    simp [Item.entries]

/- Writing fragments in turn adds the items of each. -/
theorem writeList_eq_add
    {fs : List Fragment}
    (hParts : ∀ f ∈ fs, ∀ w,
      write style f w = w.add style (f.items w.depth))
    (w : Writer) :
    writeList style fs w =
      w.add style (itemsList w.depth fs) := by
  induction fs generalizing w with
  | nil =>
      rfl
  | cons f fs ih =>
      rw [List.forall_mem_cons] at hParts
      rw [writeList, hParts.1, ih hParts.2, itemsList,
        Writer.depth_add, Writer.add_append]

/- Writing an optional fragment adds its items. -/
theorem writeOption_eq_add
    {f : Option Fragment}
    (hParts : ∀ g ∈ f.toList, ∀ w,
      write style g w = w.add style (g.items w.depth))
    (w : Writer) :
    writeOption style f w =
      w.add style (itemsOption w.depth f) := by
  cases f with
  | none =>
      rfl
  | some g =>
      exact hParts g (by simp) w

/- Writing a fragment adds its items and nothing else. -/
theorem write_eq_add
    (f : Fragment)
    (w : Writer) :
    f.write style w = w.add style (f.items w.depth) := by
  induction f using Fragment.induct generalizing w with
  | module i p cs ihPackage ihChildren =>
      rw [write, writeOption_eq_add style ihPackage, items]
  | classifier i h m d ms x ihHeader ihImports ihMembers =>
      have hBody (v : Writer) :
          (writeList style ms
              (i.writeAfter style v.indent)).outdent =
            v.add style
              (i.afterItems (v.depth + 1) ++
                itemsList (v.depth + 1) ms) := by
        rw [Info.writeAfter_eq_add,
          writeList_eq_add style ihMembers,
          ← Writer.add_append, Writer.outdent_add_indent]
        simp [Writer.indent]
      rw [write, items]
      simp only [hBody, Writer.writeSections_eq_add,
        Info.writePrologue_eq_add, Writer.line_eq_add style,
        writeOption_eq_add style ihHeader,
        writeOption_eq_add style ihImports,
        Writer.depth_add, Writer.add_append]
  | group i cs ihChildren =>
      rw [write, writeList_eq_add style ihChildren, items]
  | method i s a b =>
      simp only [write, items, Info.writePrologue_eq_add,
        writeBody_eq_add, Info.writeAfter_eq_add,
        Writer.spacer_eq_add, Writer.depth_add,
        Writer.add_append]
  | simple i t =>
      simp only [write, items, Info.writePrologue_eq_add,
        Writer.block_eq_add style, Info.writeAfter_eq_add,
        Writer.spacer_eq_add, Writer.depth_add,
        Writer.add_append]
  | template i s =>
      rw [write, writeSource_eq_add style, items]

/- The entries of a rendered fragment, joined to a text. -/
theorem render_eq_unlines
    (unit : String)
    (f : Fragment) :
    f.render unit style =
      Text.unlines
        ((f.items 0).flatMap (Item.entries style unit)) := by
  unfold render Writer.finish
  rw [write_eq_add, Writer.lines_add]
  simp [Writer.start]

end Fragment

------------------------------------------------------------
-- The Items Of A Changed Tree
------------------------------------------------------------

section Changed

variable (change : Section → Section) (depth : Nat)

/- Generated lines are left alone by a change of sections. -/
theorem Item.map_mapSection_line (texts : List String) :
    (texts.map (Item.line depth)).map
        (Item.mapSection change) =
      texts.map (Item.line depth) := by
  rw [List.map_map]
  rfl

/- Changing sections changes their items. -/
theorem Item.map_mapSection_region
    (sections : List Section) :
    (sections.map (Item.region depth)).map
        (Item.mapSection change) =
      (sections.map change).map (Item.region depth) := by
  rw [List.map_map, List.map_map]
  rfl

namespace Info

/- The items before a fragment after a change of sections. -/
theorem prologueItems_mapSections (i : Info) :
    (i.mapSections change).prologueItems depth =
      (i.prologueItems depth).map (Item.mapSection change) := by
  have hDocumentation :
      (i.documentationItems depth).map
          (Item.mapSection change) =
        i.documentationItems depth := by
    unfold documentationItems
    cases i.documentation with
    | none =>
        rfl
    | some text =>
        dsimp only
        rw [List.map_append, Item.map_mapSection_line]
        rfl
  unfold prologueItems
  rw [List.map_append, List.map_append, hDocumentation,
    Item.map_mapSection_line, Item.map_mapSection_region]
  rfl

/- The items after a fragment after a change of sections. -/
theorem afterItems_mapSections (i : Info) :
    (i.mapSections change).afterItems depth =
      (i.afterItems depth).map (Item.mapSection change) :=
  (Item.map_mapSection_region change depth i.after).symm

end Info

namespace Fragment

/- The items of a body after a change of its section. -/
theorem bodyItems_map
    (signature : String)
    (body : Option Section) :
    bodyItems depth signature (body.map change) =
      (bodyItems depth signature body).map
        (Item.mapSection change) := by
  cases body <;> rfl

/- A template's source is left alone. -/
theorem map_mapSection_sourceItems (source : String) :
    (sourceItems source).map (Item.mapSection change) =
      sourceItems source := by
  unfold sourceItems
  split
  · rfl
  · rw [List.map_map]
    rfl

/- The items of changed parts, part by part. -/
theorem flatMap_items_map
    {change : Section → Section}
    {fs : List Fragment}
    (hParts : ∀ f ∈ fs, ∀ depth,
      (f.mapSections change).items depth =
        (f.items depth).map (Item.mapSection change))
    (depth : Nat) :
    (fs.map (mapSections change)).flatMap (items depth) =
      (fs.flatMap (items depth)).map
        (Item.mapSection change) := by
  rw [List.flatMap_map, List.map_flatMap]
  exact List.flatMap_congr (fun f hf => hParts f hf depth)

/- A changed tree adds the same items with changed sections. -/
theorem items_mapSections (f : Fragment) :
    (f.mapSections change).items depth =
      (f.items depth).map (Item.mapSection change) := by
  induction f using Fragment.induct generalizing depth with
  | module i p cs ihPackage ihChildren =>
      have hPackage := flatMap_items_map ihPackage
      simp only [mapSections, items, itemsOption_eq_flatMap,
        mapSectionsOption_eq_map, Option.toList_map, hPackage]
  | classifier i h m d ms x ihHeader ihImports ihMembers =>
      have hHeader := flatMap_items_map ihHeader
      have hImports := flatMap_items_map ihImports
      have hMembers := flatMap_items_map ihMembers
      simp only [mapSections, items, itemsOption_eq_flatMap,
        itemsList_eq_flatMap, mapSectionsOption_eq_map,
        mapSectionsList_eq_map, Option.toList_map, hHeader,
        hImports, hMembers, Info.prologueItems_mapSections,
        Info.afterItems_mapSections, List.map_append,
        Item.map_mapSection_region]
      rfl
  | group i cs ihChildren =>
      have hChildren := flatMap_items_map ihChildren
      simp only [mapSections, items, itemsList_eq_flatMap,
        mapSectionsList_eq_map, hChildren]
  | method i s a b =>
      simp only [mapSections, items, bodyItems_map,
        Info.prologueItems_mapSections,
        Info.afterItems_mapSections, List.map_append]
      rfl
  | simple i t =>
      simp only [mapSections, items,
        Info.prologueItems_mapSections,
        Info.afterItems_mapSections, List.map_append,
        Item.map_mapSection_line]
      rfl
  | template i s =>
      simp only [mapSections, items,
        map_mapSection_sourceItems]

end Fragment

end Changed

end Palimpsest
