import Mathlib.Data.List.Nodup
import Palimpsest.Proofs.Fragment.Rendering
import Palimpsest.Proofs.Text.Parts
import Palimpsest.Section.Fill

/-
  Filling a section in the text fills it in the tree.

  Filling by hand finds a section by its id in double angle
  brackets and by the start of its end marker.  The scanner
  looks for other patterns; on the marked rendering of a tree
  the two agree as long as the id is shown on one line only.

  Main declarations:
    * `Fill.OpensOnce`
    * `Fill.isEnd_of_closes`
    * `Fill.fillLines_block`
    * `Fragment.items_fill`
    * `Fragment.fillSection_render`
-/

namespace Palimpsest

------------------------------------------------------------
-- Recognising The Markers Of A Section
------------------------------------------------------------

namespace Fill

variable {id : SectionId}

/-
  Exactly one line of the text shows the id of the section.
  Where the section is written, this is its begin marker.
-/
def OpensOnce
    (id : SectionId)
    (text : String) : Prop :=
  (Text.lines text).countP (fun line => Opens id line) = 1

instance
    (id : SectionId)
    (text : String) :
    Decidable (OpensOnce id text) := by
  unfold OpensOnce
  infer_instance

/- A written begin marker shows its id. -/
theorem opens_beginMarker
    (id : SectionId)
    (unit : String)
    (depth : Nat) :
    Opens id
      (Writer.indented unit depth (Marker.beginMarker id)) := by
  have hOpening :
      Marker.opening.toList =
        "// ----------- ".toList ++ "<< ".toList := by
    decide
  have hClosing : Marker.closing.toList = " >>".toList := by
    rfl
  rw [Writer.indented_of_ne (Marker.beginMarker_ne_empty id)]
  unfold Opens label Marker.beginMarker
  rw [Text.occurs_iff]
  refine ⟨(Writer.indentation unit depth).toList ++
    "// ----------- ".toList, [], ?_⟩
  simp only [String.toList_append, hOpening, hClosing,
    List.append_assoc, List.append_nil]

/- What closes a section by hand closes it for the scanner. -/
theorem isEnd_of_closes
    {line : String}
    (hLine : Closes line) :
    Marker.IsEnd line := by
  have hTrim :
      Text.trimStart line.toList <:+ line.toList :=
    List.dropWhile_suffix _
  rcases hTrim with ⟨lead, hLead⟩
  rcases List.isPrefixOf_iff_prefix.mp hLine with
    ⟨after, hAfter⟩
  unfold Marker.IsEnd
  rw [Text.occurs_iff]
  refine ⟨lead, after, ?_⟩
  rw [List.append_assoc, hAfter, hLead]

/- A written end marker closes a section. -/
theorem closes_endMarker
    {unit : String}
    (hUnit : IsIndentation unit)
    (depth : Nat) :
    Closes
      (Writer.indented unit depth Marker.endMarker) := by
  have hSpace : Text.IsBlankChar ' ' := by
    decide
  have hTab : Text.IsBlankChar '\t' := by
    decide
  have hMarker :
      Text.trimStart Marker.endMarker.toList =
        Marker.endMarker.toList := by
    decide
  have hBlank :
      ∀ c ∈ (Writer.indentation unit depth).toList,
        decide (Text.IsBlankChar c) = true := by
    intro c hc
    rw [decide_eq_true_eq]
    rcases hUnit.indentation depth c hc with rfl | rfl
    · exact hSpace
    · exact hTab
  have hTrim :
      Text.trimStart
          ((Writer.indentation unit depth).toList ++
            Marker.endMarker.toList) =
        Text.trimStart Marker.endMarker.toList :=
    List.dropWhile_append_of_pos hBlank
  unfold Closes
  rw [Writer.indented_of_ne Marker.endMarker_ne_empty,
    String.toList_append, hTrim, hMarker]
  exact List.isPrefixOf_iff_prefix.mpr List.prefix_rfl

------------------------------------------------------------
-- Filling A Marked Text
------------------------------------------------------------

variable {contents : List String}

/- Lines that do not show the id stay as they are. -/
theorem fillLines_plain
    {front : List String}
    (hFront : ∀ line ∈ front, ¬ Opens id line)
    (rest : List String) :
    fillLines id contents false (front ++ rest) =
      front ++ fillLines id contents false rest := by
  induction front with
  | nil =>
      rfl
  | cons line front ih =>
      rw [List.forall_mem_cons] at hFront
      rw [List.cons_append, fillLines,
        decide_eq_false hFront.1, ih hFront.2,
        List.cons_append]

/- The old lines of the section are passed over. -/
theorem fillLines_inner
    {inner : List String}
    (hInner : ∀ line ∈ inner, ¬ Closes line)
    (rest : List String) :
    fillLines id contents true (inner ++ rest) =
      fillLines id contents true rest := by
  induction inner with
  | nil =>
      rfl
  | cons line inner ih =>
      rw [List.forall_mem_cons] at hInner
      rw [List.cons_append, fillLines, if_neg hInner.1,
        ih hInner.2]

/-
  Between the only line that shows the id and the next line
  that closes a section, all lines are exchanged.
-/
theorem fillLines_block
    {first last : String}
    {front inner back : List String}
    (hOnce :
      (front ++ first :: (inner ++ last :: back)).countP
        (fun line => Opens id line) = 1)
    (hFirst : Opens id first)
    (hInner : ∀ line ∈ inner, ¬ Closes line)
    (hLast : Closes last) :
    fillLines id contents false
        (front ++ first :: (inner ++ last :: back)) =
      front ++ first :: (contents ++ last :: back) := by
  rw [List.countP_append,
    List.countP_cons_of_pos (by simpa using hFirst),
    List.countP_append, List.countP_cons] at hOnce
  have hFront : front.countP (fun line => Opens id line) = 0 :=
    by omega
  have hBack : back.countP (fun line => Opens id line) = 0 :=
    by omega
  rw [List.countP_eq_zero] at hFront hBack
  simp only [decide_eq_true_eq] at hFront hBack
  have hRest :
      fillLines id contents false back = back := by
    simpa [fillLines] using fillLines_plain hBack []
  rw [fillLines_plain hFront, fillLines,
    decide_eq_true hFirst, fillLines_inner hInner, fillLines,
    if_pos hLast, hRest]

end Fill

------------------------------------------------------------
-- Filling A Tree
------------------------------------------------------------

/- Filling changes no section with another id. -/
theorem Section.replaceIf_of_ne
    {id : SectionId}
    {s : Section}
    (hId : s.id ≠ id)
    (contents : List String) :
    s.replaceIf id.text contents = s :=
  if_neg (fun hText => hId (SectionId.ext hText))

/- Filling changes the items of no section with another id. -/
theorem Item.map_replaceIf_eq_self
    {id : SectionId}
    {items : List Item}
    (hItems : ∀ s ∈ Item.regions items, s.id ≠ id)
    (contents : List String) :
    items.map
        (Item.mapSection (Section.replaceIf id.text contents)) =
      items := by
  apply map_eq_self
  intro item hItem
  cases item with
  | line depth text =>
      rfl
  | source text =>
      rfl
  | region depth s =>
      have hRegion : s ∈ Item.regions items :=
        List.mem_filterMap.mpr ⟨_, hItem, rfl⟩
      rw [Item.mapSection,
        Section.replaceIf_of_ne (hItems s hRegion)]
  | gap =>
      rfl

namespace Fragment

variable {f : Fragment} {id : SectionId} {unit : String}

/- A written section is one of the items. -/
theorem exists_items_of_mem_emittedIds
    (hId : id ∈ f.emittedIds) :
    ∃ front depth back, ∃ s ∈ f.emitted,
      s.id = id ∧
        f.items 0 = front ++ .region depth s :: back := by
  rcases List.mem_map.mp hId with ⟨s, hs, rfl⟩
  rcases List.mem_filterMap.mp hs with ⟨item, hItem, hRegion⟩
  rcases List.append_of_mem hItem with ⟨front, back, hSplit⟩
  cases item with
  | line depth text =>
      cases hRegion
  | source text =>
      cases hRegion
  | region depth t =>
      cases hRegion
      exact ⟨front, depth, back, s, hs, rfl, hSplit⟩
  | gap =>
      cases hRegion

/-
  If ids are unique, filling a written section changes its
  item and no other.
-/
theorem items_fill
    (hIds : f.sectionIds.Nodup)
    {front back : List Item}
    {depth : Nat}
    {s : Section}
    (hItems : f.items 0 = front ++ .region depth s :: back)
    (contents : List String) :
    (f.fill s.id.text contents).items 0 =
      front ++ .region depth (s.replace contents) :: back := by
  have hNodup := nodup_emittedIds hIds
  have hEmitted :
      f.emitted =
        Item.regions front ++ s :: Item.regions back := by
    unfold emitted
    rw [hItems, Item.regions_append]
    rfl
  unfold emittedIds at hNodup
  rw [hEmitted, List.map_append, List.map_cons,
    List.nodup_middle, List.nodup_cons, ← List.map_append,
    List.mem_map] at hNodup
  have hOther :
      ∀ t ∈ Item.regions front ++ Item.regions back,
        t.id ≠ s.id :=
    fun t ht hSame => hNodup.1 ⟨t, ht, hSame⟩
  rw [List.forall_mem_append] at hOther
  have hFilled :
      s.replaceIf s.id.text contents = s.replace contents :=
    if_pos rfl
  unfold fill
  rw [items_mapSections, hItems, List.map_append,
    List.map_cons, Item.map_replaceIf_eq_self hOther.1,
    Item.map_replaceIf_eq_self hOther.2, Item.mapSection,
    hFilled]

/- The lines around a written section, marker by marker. -/
theorem lines_render_of_items
    (hUnit : IsIndentation unit)
    {front back : List Item}
    {depth : Nat}
    {s : Section}
    (hSection : s.IsRecoverable)
    (hItems : f.items 0 = front ++ .region depth s :: back) :
    Text.lines (f.render unit .marked) =
      (front.flatMap (Item.entries .marked unit)).flatMap
          Text.lines ++
        Item.entries .marked unit (.region depth s) ++
          (back.flatMap (Item.entries .marked unit)).flatMap
            Text.lines := by
  rw [render_eq_unlines, hItems, List.flatMap_append,
    List.flatMap_cons,
    Text.lines_unlines (by simp [Item.entries]),
    List.flatMap_append, List.flatMap_append,
    Item.flatMap_lines_region hUnit depth hSection,
    List.append_assoc]

/- Filling changes the lines of one id and nothing else. -/
theorem related_fill
    (f : Fragment)
    (id : SectionId)
    (contents : List String) :
    Related
      (fun s t =>
        t = if s.id = id then s.replace contents else s)
      f (f.fill id.text contents) := by
  apply related_mapSections
  intro s _
  by_cases hSame : s.id = id
  · rw [if_pos hSame]
    exact if_pos (congrArg SectionId.text hSame)
  · rw [if_neg hSame]
    exact Section.replaceIf_of_ne hSame contents

/-
  In a tree with unique ids, filling a section in the marked
  rendering gives the rendering of the tree in which the
  section has the new lines and everything else is the same.
-/
theorem fillSection_render
    (hUnit : IsIndentation unit)
    (hIds : f.sectionIds.Nodup)
    (hSections : ∀ s ∈ f.emitted, s.IsRecoverable)
    (hId : id ∈ f.emittedIds)
    (hOnce : Fill.OpensOnce id (f.render unit .marked))
    (contents : List String) :
    fillSection (f.render unit .marked) id contents =
        (f.fill id.text contents).render unit .marked ∧
      Related
        (fun s t =>
          t = if s.id = id then s.replace contents else s)
        f (f.fill id.text contents) := by
  rcases exists_items_of_mem_emittedIds hId with
    ⟨front, depth, back, s, hs, rfl, hItems⟩
  have hSection := hSections s hs
  have hLines := lines_render_of_items hUnit hSection hItems
  have hFirst := Fill.opens_beginMarker s.id unit depth
  have hInner :
      ∀ line ∈ s.contents, ¬ Fill.Closes line :=
    fun line hLine hCloses =>
      (hSection line hLine).2.1 (Fill.isEnd_of_closes hCloses)
  have hLast := Fill.closes_endMarker hUnit depth
  unfold Fill.OpensOnce at hOnce
  simp only [Item.entries, List.append_assoc,
    List.cons_append, List.nil_append] at hLines
  rw [hLines] at hOnce
  refine ⟨?_, related_fill f s.id contents⟩
  rw [fillSection, hLines,
    Fill.fillLines_block hOnce hFirst hInner hLast,
    render_eq_unlines, items_fill hIds hItems contents]
  -- The lines that stay have been cut out of the entries.
  apply Text.unlines_eq_of_flatMap_lines (by simp)
    (by simp [Item.entries])
  simp only [List.flatMap_append, List.flatMap_cons,
    Text.flatMap_lines_flatMap_lines, Item.entries,
    Section.replace, List.flatMap_nil, List.append_assoc,
    List.append_nil]

/- The section for extras, filled with lines like markers. -/
theorem fillSection_render_extras :
    IsIndentation "  \t" ∧
      (invoice ["// >>", ""] [] ["old"]).sectionIds.Nodup ∧
        (∀ s ∈ (invoice ["// >>", ""] [] ["old"]).emitted,
          s.IsRecoverable) ∧
          extrasId ∈
            (invoice ["// >>", ""] [] ["old"]).emittedIds ∧
            Fill.OpensOnce extrasId
              ((invoice ["// >>", ""] [] ["old"]).render
                "  \t" .marked) ∧
              fillSection
                  ((invoice ["// >>", ""] [] ["old"]).render
                    "  \t" .marked)
                  extrasId ["<< extras >>", "a\nb"] =
                ((invoice ["// >>", ""] [] ["old"]).fill
                  "extras"
                  ["<< extras >>", "a\nb"]).render
                    "  \t" .marked := by
  have hUnit : IsIndentation "  \t" := by
    decide +kernel
  have hIds :
      (invoice ["// >>", ""] [] ["old"]).sectionIds.Nodup := by
    decide +kernel
  have hSections :
      ∀ s ∈ (invoice ["// >>", ""] [] ["old"]).emitted,
        s.IsRecoverable := by
    decide +kernel
  have hId :
      extrasId ∈
        (invoice ["// >>", ""] [] ["old"]).emittedIds := by
    decide +kernel
  have hOnce :
      Fill.OpensOnce extrasId
        ((invoice ["// >>", ""] [] ["old"]).render
          "  \t" .marked) := by
    -- The entries are shorter to search than the joined text.
    have hEntries :
        ((invoice ["// >>", ""] [] ["old"]).items 0).flatMap
            (Item.entries .marked "  \t") ≠ [] := by
      decide +kernel
    unfold Fill.OpensOnce
    rw [render_eq_unlines, Text.lines_unlines hEntries]
    decide +kernel
  exact ⟨hUnit, hIds, hSections, hId, hOnce,
    (fillSection_render hUnit hIds hSections hId hOnce
      ["<< extras >>", "a\nb"]).1⟩

end Fragment

end Palimpsest
