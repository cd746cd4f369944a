import Palimpsest.Proofs.Graft

/-
  Inline rendering writes no markers.

  In the inline style a fragment becomes its generated lines
  and the lines of its sections.  If none of these is a
  marker, no line of the text is one, at any indentation.
  Recovered lines never are: they stood between two markers.

  Main declarations:
    * `Marker.isInner_append`
    * `Fragment.HasInnerText`
    * `Fragment.isInner_of_mem_lines_render`
    * `Fragment.isInner_of_mem_lines_restored`
-/

namespace Palimpsest

------------------------------------------------------------
-- Markers Behind An Indentation
------------------------------------------------------------

namespace Marker

variable {lead : String}

theorem isInner_append
    (hLead : '/' ∉ lead.toList)
    (line : String) :
    IsInner (lead ++ line) ↔ IsInner line := by
  unfold IsInner IsBegin
  rw [isEnd_append hLead, markedId?_append hLead]

theorem isInner_empty : IsInner "" := by
  decide

end Marker

/- Indenting a text makes no line of it a marker. -/
theorem isInner_of_mem_lines_indented
    {unit text : String}
    {depth : Nat}
    (hUnit : IsIndentation unit)
    (hText : ∀ line ∈ Text.lines text, Marker.IsInner line) :
    ∀ line ∈ Text.lines (Writer.indented unit depth text),
      Marker.IsInner line := by
  by_cases hEmpty : text = ""
  · subst hEmpty
    exact hText
  · have hLead := hUnit.indentation depth
    rw [Writer.indented_of_ne hEmpty,
      Text.lines_append_of_not_mem hLead.newline_not_mem]
    cases hLines : Text.lines text with
    | nil =>
        intro line hLine
        cases hLine
    | cons first rest =>
        rw [hLines, List.forall_mem_cons] at hText
        rw [List.modifyHead_cons, List.forall_mem_cons,
          Marker.isInner_append hLead.slash_not_mem]
        exact hText

------------------------------------------------------------
-- Inline Items
------------------------------------------------------------

variable {unit : String}

/- No line of an inline item is a marker. -/
theorem Item.isInner_of_mem_entries
    (hUnit : IsIndentation unit)
    {item : Item}
    (hText : ∀ line ∈ item.generated, Marker.IsInner line)
    (hSections : ∀ s ∈ item.region?, s.IsRecoverable) :
    ∀ line ∈
        (item.entries .inline unit).flatMap Text.lines,
      Marker.IsInner line := by
  cases item with
  | line depth text =>
      rw [Item.entries, List.flatMap_singleton]
      exact isInner_of_mem_lines_indented hUnit hText
  | source text =>
      rw [Item.entries, List.flatMap_singleton]
      exact hText
  | region depth s =>
      have hSection : s.IsRecoverable := hSections s rfl
      rw [Item.entries, hSection.flatMap_lines]
      exact fun line hLine => (hSection line hLine).2
  | gap =>
      intro line hLine
      cases hLine

namespace Fragment

variable {f : Fragment}

/- No generated line is a marker. -/
def HasInnerText (f : Fragment) : Prop :=
  ∀ line ∈ f.generatedLines, Marker.IsInner line

instance (f : Fragment) : Decidable f.HasInnerText :=
  List.decidableBAll _ f.generatedLines

theorem HasInnerText.mapSections
    (hText : f.HasInnerText)
    (change : Section → Section) :
    (f.mapSections change).HasInnerText := by
  unfold HasInnerText
  rw [generatedLines_mapSections]
  exact hText

/- No line of an inline rendering is a marker. -/
theorem isInner_of_mem_lines_render
    (hUnit : IsIndentation unit)
    (hText : f.HasInnerText)
    (hSections : ∀ s ∈ f.emitted, s.IsRecoverable) :
    ∀ line ∈ Text.lines (f.render unit .inline),
      Marker.IsInner line := by
  rw [render_eq_unlines]
  by_cases hEntries :
      (f.items 0).flatMap (Item.entries .inline unit) = []
  · rw [hEntries, Text.lines_unlines_nil]
    intro line hLine
    rw [List.mem_singleton.mp hLine]
    exact Marker.isInner_empty
  · rw [Text.lines_unlines hEntries, List.flatMap_assoc]
    intro line hLine
    rcases List.mem_flatMap.mp hLine with ⟨item, hItem, hIn⟩
    apply Item.isInner_of_mem_entries hUnit _ _ line hIn
    · intro other hOther
      exact hText other
        (List.mem_flatMap.mpr ⟨item, hItem, hOther⟩)
    · intro s hs
      exact hSections s
        (List.mem_filterMap.mpr ⟨item, hItem, hs⟩)

/- Putting back what was recovered adds no marker. -/
theorem isInner_of_mem_lines_restored
    (hUnit : IsIndentation unit)
    (hText : f.HasInnerText)
    (hSections : ∀ s ∈ f.emitted, s.IsRecoverable)
    {recovered : List Section}
    (hRecovered : ∀ s ∈ recovered, s.IsRecoverable) :
    ∀ line ∈ Text.lines
        ((f.mapSections (Graft.restore recovered)).render
          unit .inline),
      Marker.IsInner line := by
  apply isInner_of_mem_lines_render hUnit
    (hText.mapSections _)
  intro s hs
  rw [emitted_mapSections] at hs
  rcases List.mem_map.mp hs with ⟨o, hO, rfl⟩
  exact Graft.isRecoverable_restore hRecovered
    (fun _ => hSections o hO)

end Fragment

end Palimpsest
