import Palimpsest.Proofs.Fragment.Scaffold

/-
  What a fragment adds to a writer follows the depth.

  Writing at a greater depth adds the same entries.  Generated
  lines and markers that are not empty move to the right by
  the further indentation; empty entries, the lines of
  sections and the lines of templates stay as they are.

  Main declarations:
    * `Item.deeper`
    * `Fragment.items_add`
    * `Entry.moved`
    * `Fragment.entries`
    * `Fragment.write_follows_depth`
-/

namespace Palimpsest

------------------------------------------------------------
-- Indentation
------------------------------------------------------------

namespace Writer

variable (unit text : String)

/- The indentation of a sum of depths. -/
theorem indentation_add (depth more : Nat) :
    indentation unit (depth + more) =
      indentation unit more ++ indentation unit depth := by
  apply String.toList_inj.mp
  unfold indentation
  rw [String.toList_append, Text.toList_repeated,
    Text.toList_repeated, Text.toList_repeated,
    Nat.add_comm, List.replicate_add, List.flatten_append]

/- Only the empty line is indented to an empty one. -/
theorem indented_eq_empty_iff (depth : Nat) :
    indented unit depth text = "" ↔ text = "" := by
  unfold indented
  split <;> simp_all

/- A line that is not empty moves with the depth. -/
theorem indented_add_of_ne
    {text : String}
    (hText : text ≠ "")
    (depth more : Nat) :
    indented unit (depth + more) text =
      indentation unit more ++ indented unit depth text := by
  unfold indented
  rw [if_neg hText, if_neg hText, indentation_add,
    String.append_assoc]

end Writer

------------------------------------------------------------
-- Entries At Another Depth
------------------------------------------------------------

/- The line of the contents that a part is, if it is one. -/
def SectionPart.content? : SectionPart → Option String
| .content text => some text
| _ => none

namespace Entry

/- The same entry, written deeper. -/
def deeper (more : Nat) : Entry → Entry
| .generated depth text => .generated (depth + more) text
| .part depth p => .part (depth + more) p
| entry => entry

/- Generated lines and markers are indented. -/
def isIndented : Entry → Bool
| .generated _ _ => true
| .part _ (.opening _) => true
| .part _ (.closing _) => true
| _ => false

/-
  The text of an entry moved to a depth: an indented entry
  that is not empty gets the indentation of this depth in
  front, and every other entry is left as it is.
-/
def moved
    (unit : String)
    (depth : Nat)
    (entry : Entry) : String :=
  if entry.isIndented ∧ entry.text unit ≠ "" then
    Writer.indentation unit depth ++ entry.text unit
  else
    entry.text unit

/- A line that is indented by its depth moves with it. -/
theorem moved_of_indented
    {entry : Entry}
    {unit line : String}
    {depth : Nat}
    (hKind : entry.isIndented = true)
    (hText : entry.text unit =
      Writer.indented unit depth line)
    (more : Nat) :
    entry.moved unit more =
      Writer.indented unit (depth + more) line := by
  unfold moved
  rw [hText]
  by_cases hLine : line = ""
  · subst hLine
    rw [if_neg (fun h => h.2 rfl)]
    rfl
  · have hShown : Writer.indented unit depth line ≠ "" := by
      rwa [ne_eq, Writer.indented_eq_empty_iff]
    rw [if_pos ⟨hKind, hShown⟩,
      Writer.indented_add_of_ne unit hLine]

/- The text of an entry that was written deeper. -/
theorem text_deeper
    (unit : String)
    (more : Nat)
    (entry : Entry) :
    (entry.deeper more).text unit = entry.moved unit more := by
  cases entry with
  | generated depth text =>
      exact (moved_of_indented rfl rfl more).symm
  | source text =>
      rfl
  | part depth p =>
      cases p with
      | opening id =>
          exact (moved_of_indented rfl rfl more).symm
      | content text =>
          rfl
      | closing id =>
          exact (moved_of_indented rfl rfl more).symm
  | spacer =>
      rfl

/- An entry that was written deeper is of the same kind. -/
theorem isScaffold_deeper
    (more : Nat)
    (entry : Entry) :
    (entry.deeper more).isScaffold = entry.isScaffold := by
  cases entry with
  | part depth p =>
      cases p <;> rfl
  | _ =>
      rfl

/- The entries that a style shows. -/
def shown : SectionStyle → List Entry → List Entry
| .marked, entries => entries
| .inline, entries => withoutScaffold entries

/- A style shows the same entries deeper. -/
theorem shown_deeper
    (style : SectionStyle)
    (more : Nat)
    (entries : List Entry) :
    shown style (entries.map (deeper more)) =
      (shown style entries).map (deeper more) := by
  cases style with
  | marked =>
      rfl
  | inline =>
      dsimp only [shown, withoutScaffold]
      rw [List.filter_map]
      simp only [Function.comp_def, isScaffold_deeper]

/- The line of a section that an entry is, if it is one. -/
def content? (entry : Entry) : Option String :=
  entry.part?.bind SectionPart.content?

/- The line of a template that an entry is, if it is one. -/
def source? : Entry → Option String
| .source text => some text
| _ => none

/- The scaffold holds no lines of sections. -/
theorem content?_of_isScaffold
    {entry : Entry}
    (hKind : entry.isScaffold = true) :
    entry.content? = none := by
  cases entry with
  | generated depth text =>
      cases hKind
  | source text =>
      cases hKind
  | part depth p =>
      cases p with
      | opening id =>
          rfl
      | content text =>
          cases hKind
      | closing id =>
          rfl
  | spacer =>
      rfl

/- The scaffold holds no lines of templates. -/
theorem source?_of_isScaffold
    {entry : Entry}
    (hKind : entry.isScaffold = true) :
    entry.source? = none := by
  cases entry with
  | source text =>
      cases hKind
  | _ =>
      rfl

/- A style shows every entry outside the scaffold. -/
theorem filterMap_shown
    {α : Type}
    {value? : Entry → Option α}
    (hScaffold : ∀ {entry},
      entry.isScaffold = true → value? entry = none)
    (style : SectionStyle)
    (entries : List Entry) :
    (shown style entries).filterMap value? =
      entries.filterMap value? := by
  cases style with
  | marked =>
      rfl
  | inline =>
      dsimp only [shown, withoutScaffold]
      rw [List.filterMap_filter]
      apply List.filterMap_congr
      intro entry _
      cases hKind : entry.isScaffold with
      | true =>
          simp [hScaffold hKind]
      | false =>
          simp

end Entry

------------------------------------------------------------
-- Items At Another Depth
------------------------------------------------------------

namespace Item

/- The same item, written deeper. -/
def deeper (more : Nat) : Item → Item
| .line depth text => .line (depth + more) text
| .region depth s => .region (depth + more) s
| item => item

/- The entries of an item that was written deeper. -/
theorem tagged_deeper
    (more : Nat)
    (item : Item) :
    (item.deeper more).tagged =
      item.tagged.map (Entry.deeper more) := by
  cases item with
  | region depth s =>
      simp only [deeper, tagged, List.map_map]
      rfl
  | _ =>
      rfl

variable (depth more : Nat)

/- Generated lines, deeper. -/
theorem map_deeper_line (texts : List String) :
    (texts.map (line depth)).map (deeper more) =
      texts.map (line (depth + more)) := by
  rw [List.map_map]
  rfl

/- Sections, deeper. -/
theorem map_deeper_region (sections : List Section) :
    (sections.map (region depth)).map (deeper more) =
      sections.map (region (depth + more)) := by
  rw [List.map_map]
  rfl

end Item

namespace Info

variable (depth more : Nat) (i : Info)

/- The items before a fragment, deeper. -/
theorem prologueItems_add :
    i.prologueItems (depth + more) =
      (i.prologueItems depth).map (Item.deeper more) := by
  have hDocumentation :
      i.documentationItems (depth + more) =
        (i.documentationItems depth).map
          (Item.deeper more) := by
    unfold documentationItems
    cases i.documentation with
    | none =>
        rfl
    | some text =>
        dsimp only
        rw [List.map_append, Item.map_deeper_line]
        rfl
  unfold prologueItems
  rw [List.map_append, List.map_append, hDocumentation,
    Item.map_deeper_line, Item.map_deeper_region]

/- The items after a fragment, deeper. -/
theorem afterItems_add :
    i.afterItems (depth + more) =
      (i.afterItems depth).map (Item.deeper more) :=
  (Item.map_deeper_region depth more i.after).symm

end Info

namespace Fragment

/- The items of a signature with its body, deeper. -/
theorem bodyItems_add
    (depth more : Nat)
    (signature : String)
    (body : Option Section) :
    bodyItems (depth + more) signature body =
      (bodyItems depth signature body).map
        (Item.deeper more) := by
  cases body with
  | none =>
      rfl
  | some s =>
      simp only [bodyItems, List.map_cons, List.map_nil,
        Item.deeper, Nat.add_right_comm depth more 1]

/- A template's source has no depth. -/
theorem map_deeper_sourceItems
    (more : Nat)
    (source : String) :
    (sourceItems source).map (Item.deeper more) =
      sourceItems source := by
  unfold sourceItems
  split
  · rfl
  · rw [List.map_map]
    rfl

/- The items of the parts of a fragment, deeper. -/
theorem flatMap_items_add
    {more : Nat}
    {fs : List Fragment}
    (hParts : ∀ f ∈ fs, ∀ depth,
      f.items (depth + more) =
        (f.items depth).map (Item.deeper more))
    (depth : Nat) :
    fs.flatMap (items (depth + more)) =
      (fs.flatMap (items depth)).map (Item.deeper more) := by
  rw [List.map_flatMap]
  exact List.flatMap_congr (fun f hf => hParts f hf depth)

/- Writing a fragment deeper adds the same items, deeper. -/
theorem items_add
    (f : Fragment)
    (depth more : Nat) :
    f.items (depth + more) =
      (f.items depth).map (Item.deeper more) := by
  induction f using Fragment.induct generalizing depth with
  | module i p cs ihPackage ihChildren =>
      simp only [items, itemsOption_eq_flatMap,
        flatMap_items_add ihPackage]
  | classifier i h m d ms x ihHeader ihImports ihMembers =>
      -- The members stand one level deeper than the rest.
      have hInner : depth + more + 1 = depth + 1 + more :=
        Nat.add_right_comm depth more 1
      simp only [items, itemsOption_eq_flatMap,
        itemsList_eq_flatMap, hInner,
        flatMap_items_add ihHeader,
        flatMap_items_add ihImports,
        flatMap_items_add ihMembers, Info.prologueItems_add,
        Info.afterItems_add, List.map_append, List.map_cons,
        List.map_nil, Item.deeper, Item.map_deeper_region]
  | group i cs ihChildren =>
      simp only [items, itemsList_eq_flatMap,
        flatMap_items_add ihChildren]
  | method i s a b =>
      simp only [items, Info.prologueItems_add, bodyItems_add,
        Info.afterItems_add, List.map_append, List.map_cons,
        List.map_nil, Item.deeper]
  | simple i t =>
      simp only [items, Info.prologueItems_add,
        Info.afterItems_add, List.map_append, List.map_cons,
        List.map_nil, Item.deeper, Item.map_deeper_line]
  | template i s =>
      simp only [items, map_deeper_sourceItems]

end Fragment

------------------------------------------------------------
-- The Lines Of Sections And Templates
------------------------------------------------------------

namespace Item

/- The line of a template that an item is, if it is one. -/
def source? : Item → Option String
| .source text => some text
| _ => none

/- The lines of templates among entries are those of items. -/
theorem sources_flatMap_tagged (items : List Item) :
    (items.flatMap tagged).filterMap Entry.source? =
      items.filterMap source? := by
  induction items with
  | nil =>
      rfl
  | cons item items ih =>
      rw [List.flatMap_cons, List.filterMap_append, ih,
        List.filterMap_cons]
      cases item with
      | region depth s =>
          have hNone :
              (s.parts.map (Entry.part depth)).filterMap
                Entry.source? = [] := by
            rw [List.filterMap_map]
            exact List.filterMap_eq_nil_iff.mpr
              (fun _ _ => rfl)
          rw [tagged, hNone]
          rfl
      | _ =>
          rfl

/- The lines of contents among the parts of a section. -/
theorem contents_parts (s : Section) :
    s.parts.filterMap SectionPart.content? = s.contents := by
  have hContents :
      (s.contents.map SectionPart.content).filterMap
        SectionPart.content? = s.contents := by
    rw [List.filterMap_map]
    exact List.filterMap_some
  rw [Section.parts, List.filterMap_cons_none rfl,
    List.filterMap_append, hContents]
  exact List.append_nil _

/- The lines of sections among entries are their contents. -/
theorem contents_flatMap_tagged (items : List Item) :
    (items.flatMap tagged).filterMap Entry.content? =
      (regions items).flatMap Section.contents := by
  have hEntry : Entry.content? =
      fun entry => entry.part?.bind SectionPart.content? :=
    rfl
  rw [hEntry, ← List.filterMap_filterMap,
    parts_flatMap_tagged, List.filterMap_flatMap]
  exact List.flatMap_congr (fun s _ => contents_parts s)

/- Items that are no lines of templates add none of them. -/
theorem sources_map_of_forall
    {α : Type}
    {item : α → Item}
    (hItem : ∀ x, (item x).source? = none)
    (xs : List α) :
    (xs.map item).filterMap source? = [] := by
  rw [List.filterMap_map]
  exact List.filterMap_eq_nil_iff.mpr (fun x _ => hItem x)

/- Generated lines are no lines of templates. -/
theorem sources_map_line (depth : Nat) (texts : List String) :
    (texts.map (line depth)).filterMap source? = [] :=
  sources_map_of_forall (fun _ => rfl) texts

/- Sections are no lines of templates. -/
theorem sources_map_region
    (depth : Nat)
    (sections : List Section) :
    (sections.map (region depth)).filterMap source? = [] :=
  sources_map_of_forall (fun _ => rfl) sections

/- A gap is no line of a template. -/
theorem sources_gap : [gap].filterMap source? = [] :=
  rfl

end Item

namespace Info

/- No line of a template stands before a fragment. -/
theorem sources_prologueItems
    (depth : Nat)
    (i : Info) :
    (i.prologueItems depth).filterMap Item.source? = [] := by
  have hDocumentation :
      (i.documentationItems depth).filterMap Item.source? =
        [] := by
    unfold documentationItems
    cases i.documentation with
    | none =>
        rfl
    | some text =>
        dsimp only
        rw [List.filterMap_append, Item.sources_map_line]
        rfl
  rw [prologueItems, List.filterMap_append,
    List.filterMap_append, hDocumentation,
    Item.sources_map_line, Item.sources_map_region]
  rfl

end Info

namespace Fragment

/- The lines of a template, as they were given. -/
def templateLines : Fragment → List String
| .template _ s => if s = "" then [] else Text.lines s
| _ => []

/- The lines of templates among parts, part by part. -/
theorem sources_flatMap_items
    {fs : List Fragment}
    (hParts : ∀ f ∈ fs, ∀ depth,
      (f.items depth).filterMap Item.source? =
        f.written.flatMap templateLines)
    (depth : Nat) :
    (fs.flatMap (items depth)).filterMap Item.source? =
      (fs.flatMap written).flatMap templateLines := by
  rw [List.filterMap_flatMap, List.flatMap_assoc]
  exact List.flatMap_congr (fun f hf => hParts f hf depth)

/- Writing adds the lines of the written templates. -/
theorem sources_items
    (f : Fragment)
    (depth : Nat) :
    (f.items depth).filterMap Item.source? =
      f.written.flatMap templateLines := by
  induction f using Fragment.induct generalizing depth with
  | module i p cs ihPackage ihChildren =>
      simp only [items, written, itemsOption_eq_flatMap,
        writtenOption_eq_flatMap, List.flatMap_cons,
        templateLines, List.nil_append,
        sources_flatMap_items ihPackage]
  | classifier i h m d ms x ihHeader ihImports ihMembers =>
      have hLine (text : String) :
          [Item.line depth text].filterMap Item.source? = [] :=
        rfl
      simp only [items, written, itemsOption_eq_flatMap,
        itemsList_eq_flatMap, writtenOption_eq_flatMap,
        writtenList_eq_flatMap, List.flatMap_cons,
        List.flatMap_append, List.filterMap_append,
        templateLines, List.nil_append, List.append_nil,
        Info.sources_prologueItems, Info.afterItems,
        Item.sources_map_region, hLine,
        sources_flatMap_items ihHeader,
        sources_flatMap_items ihImports,
        sources_flatMap_items ihMembers]
  | group i cs ihChildren =>
      simp only [items, written, itemsList_eq_flatMap,
        writtenList_eq_flatMap, List.flatMap_cons,
        templateLines, List.nil_append,
        sources_flatMap_items ihChildren]
  | method i s a b =>
      have hBody :
          (bodyItems depth s b).filterMap Item.source? = [] := by
        cases b <;> rfl
      simp only [items, written, List.filterMap_append,
        Info.sources_prologueItems, hBody, Info.afterItems,
        Item.sources_map_region, Item.sources_gap]
      rfl
  | simple i t =>
      simp only [items, written, List.filterMap_append,
        Info.sources_prologueItems, Item.sources_map_line,
        Info.afterItems, Item.sources_map_region,
        Item.sources_gap]
      rfl
  | template i s =>
      rw [items, sourceItems, written, List.flatMap_singleton,
        templateLines]
      split
      · rfl
      · rw [List.filterMap_map]
        exact List.filterMap_some

------------------------------------------------------------
-- Writing At Any Depth
------------------------------------------------------------

/- The entries that a fragment adds at depth zero. -/
def entries
    (style : SectionStyle)
    (f : Fragment) : List Entry :=
  Entry.shown style (f.taggedEntries 0)

/- Deeper, a fragment adds the same entries, deeper. -/
theorem taggedEntries_eq
    (f : Fragment)
    (depth : Nat) :
    f.taggedEntries depth =
      (f.taggedEntries 0).map (Entry.deeper depth) := by
  have hItems := f.items_add 0 depth
  rw [Nat.zero_add] at hItems
  unfold taggedEntries
  rw [hItems, List.flatMap_map, List.map_flatMap]
  exact List.flatMap_congr
    (fun item _ => Item.tagged_deeper depth item)

/- What a style makes of an item, entry by entry. -/
theorem entries_item
    (style : SectionStyle)
    (unit : String)
    (item : Item) :
    item.entries style unit =
      (Entry.shown style item.tagged).map
        (Entry.text unit) := by
  cases style with
  | marked =>
      exact Item.entries_marked unit item
  | inline =>
      exact Item.entries_inline unit item

/- Writing adds the entries that the style shows. -/
theorem lines_write
    (style : SectionStyle)
    (f : Fragment)
    (w : Writer) :
    (f.write style w).lines.toList =
      w.lines.toList ++
        (Entry.shown style (f.taggedEntries w.depth)).map
          (Entry.text w.unit) := by
  have hShown :
      Entry.shown style (f.taggedEntries w.depth) =
        (f.items w.depth).flatMap (fun item =>
          Entry.shown style item.tagged) := by
    unfold taggedEntries
    cases style with
    | marked =>
        rfl
    | inline =>
        exact List.filter_flatMap
  rw [write_eq_add, Writer.lines_add, Array.toList_append,
    hShown, List.map_flatMap]
  congr 1
  exact List.flatMap_congr
    (fun item _ => entries_item style w.unit item)

/-
  Writing a fragment adds entries to a writer and leaves its
  unit, its depth and its former lines.  The added entries are
  those of depth zero, in which generated lines and markers
  that are not empty get the indentation of the writer's depth
  in front.  The entries without indentation are the contents
  of the written sections, the lines of the written templates,
  and spacers.
-/
theorem write_follows_depth
    (style : SectionStyle)
    (f : Fragment)
    (w : Writer) :
    (f.write style w).unit = w.unit ∧
    (f.write style w).depth = w.depth ∧
    (f.write style (Writer.start w.unit)).lines.toList =
      (f.entries style).map (Entry.text w.unit) ∧
    (f.write style w).lines.toList =
      w.lines.toList ++
        (f.entries style).map
          (Entry.moved w.unit w.depth) ∧
    (f.entries style).filterMap Entry.content? =
      f.emitted.flatMap Section.contents ∧
    (f.entries style).filterMap Entry.source? =
      f.written.flatMap templateLines := by
  refine ⟨?_, ?_, ?_, ?_, ?_, ?_⟩
  · rw [write_eq_add, Writer.unit_add]
  · rw [write_eq_add, Writer.depth_add]
  · rw [lines_write]
    rfl
  · rw [lines_write, taggedEntries_eq, Entry.shown_deeper,
      List.map_map]
    congr 1
    exact List.map_congr_left
      (fun entry _ => Entry.text_deeper w.unit w.depth entry)
  · rw [entries,
      Entry.filterMap_shown Entry.content?_of_isScaffold,
      taggedEntries, Item.contents_flatMap_tagged,
      regions_items]
  · rw [entries,
      Entry.filterMap_shown Entry.source?_of_isScaffold,
      taggedEntries, Item.sources_flatMap_tagged,
      sources_items]

end Fragment

end Palimpsest
