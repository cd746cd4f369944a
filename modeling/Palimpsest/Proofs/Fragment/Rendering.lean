import Palimpsest.Proofs.Fragment.Emitted
import Palimpsest.Proofs.Section.Blocks
import Palimpsest.Proofs.Section.Marker
import Palimpsest.Proofs.Text.Lines

/-
  Scanning undoes marked rendering.

  In the marked style every item of a fragment becomes plain
  lines or one block of a marked text.  This needs an
  indentation unit of spaces and tabs, generated lines that
  are no begin markers, and sections whose lines can be told
  from markers.

  Main declarations:
    * `IsIndentation`
    * `Section.IsRecoverable`
    * `Fragment.blocks_render`
    * `Fragment.scan_render`
    * `Fragment.invoice`
-/

namespace Palimpsest

------------------------------------------------------------
-- Indentation
------------------------------------------------------------

/- An indentation unit made of spaces and tabs. -/
def IsIndentation (unit : String) : Prop :=
  ∀ c ∈ unit.toList, c = ' ' ∨ c = '\t'

instance (unit : String) : Decidable (IsIndentation unit) :=
  List.decidableBAll _ unit.toList

/- Only spaces and tabs stand in front of a line. -/
theorem IsIndentation.indentation
    {unit : String}
    (hUnit : IsIndentation unit)
    (depth : Nat) :
    IsIndentation (Writer.indentation unit depth) := by
  intro c hc
  unfold Writer.indentation at hc
  rw [Text.toList_repeated] at hc
  rcases List.mem_flatten.mp hc with ⟨chars, hChars, hIn⟩
  rw [List.eq_of_mem_replicate hChars] at hIn
  exact hUnit c hIn

/- An indentation holds no newline. -/
theorem IsIndentation.newline_not_mem
    {unit : String}
    (hUnit : IsIndentation unit) :
    Text.newline ∉ unit.toList := by
  intro h
  rcases hUnit _ h with hSpace | hTab
  · exact absurd hSpace (by decide)
  · exact absurd hTab (by decide)

/- An indentation holds no slash. -/
theorem IsIndentation.slash_not_mem
    {unit : String}
    (hUnit : IsIndentation unit) :
    '/' ∉ unit.toList := by
  intro h
  rcases hUnit _ h with hSpace | hTab
  · exact absurd hSpace (by decide)
  · exact absurd hTab (by decide)

/- A line with text stands behind its indentation. -/
theorem Writer.indented_of_ne
    {text : String}
    (hText : text ≠ "")
    (unit : String)
    (depth : Nat) :
    Writer.indented unit depth text =
      Writer.indentation unit depth ++ text :=
  if_neg hText

/- A line at a depth is one line if its text is one. -/
theorem lines_indented
    {unit text : String}
    (hUnit : IsIndentation unit)
    (hText : Text.newline ∉ text.toList)
    (depth : Nat) :
    Text.lines (Writer.indented unit depth text) =
      [Writer.indented unit depth text] := by
  apply Text.lines_eq_singleton
  by_cases hEmpty : text = ""
  · subst hEmpty
    exact hText
  · have hLead := hUnit.indentation depth
    rw [Writer.indented_of_ne hEmpty, String.toList_append,
      List.mem_append, not_or]
    exact ⟨hLead.newline_not_mem, hText⟩

/- Indenting a text makes no line of it a begin marker. -/
theorem not_isBegin_of_mem_lines_indented
    {unit text : String}
    {depth : Nat}
    (hUnit : IsIndentation unit)
    (hText : ∀ line ∈ Text.lines text, ¬ Marker.IsBegin line) :
    ∀ line ∈ Text.lines (Writer.indented unit depth text),
      ¬ Marker.IsBegin line := by
  by_cases hEmpty : text = ""
  · subst hEmpty
    exact hText
  · have hLead := hUnit.indentation depth
    rw [Writer.indented_of_ne hEmpty,
      Text.lines_append_of_not_mem hLead.newline_not_mem]
    cases hLines : Text.lines text with
    | nil =>
        intro line hLine
        cases hLine
    | cons first rest =>
        rw [hLines, List.forall_mem_cons] at hText
        rw [List.modifyHead_cons, List.forall_mem_cons]
        refine ⟨?_, hText.2⟩
        unfold Marker.IsBegin
        rw [Marker.markedId?_append hLead.slash_not_mem]
        exact hText.1

------------------------------------------------------------
-- Recoverable Sections
------------------------------------------------------------

/-
  A section that can be read back: its lines are single lines
  and no markers.
-/
def Section.IsRecoverable (s : Section) : Prop :=
  ∀ line ∈ s.contents,
    Text.newline ∉ line.toList ∧ Marker.IsInner line

instance (s : Section) : Decidable s.IsRecoverable :=
  List.decidableBAll _ s.contents

/- A section without lines can be read back. -/
theorem Section.IsFresh.isRecoverable
    {s : Section}
    (hFresh : s.IsFresh) :
    s.IsRecoverable := by
  intro line hLine
  rw [show s.contents = [] from hFresh] at hLine
  cases hLine

/- The lines of a recoverable section stand for themselves. -/
theorem Section.IsRecoverable.flatMap_lines
    {s : Section}
    (hSection : s.IsRecoverable) :
    s.contents.flatMap Text.lines = s.contents :=
  Text.flatMap_lines_eq_self
    (fun line hLine => (hSection line hLine).1)

------------------------------------------------------------
-- Rendered Fragments Are Marked Texts
------------------------------------------------------------

variable {unit : String}

/- The entries of a recoverable section are single lines. -/
theorem Item.flatMap_lines_region
    (hUnit : IsIndentation unit)
    (depth : Nat)
    {s : Section}
    (hSection : s.IsRecoverable) :
    (Item.entries .marked unit
        (.region depth s)).flatMap Text.lines =
      Item.entries .marked unit (.region depth s) := by
  have hFirst :=
    lines_indented hUnit
      (Marker.newline_not_mem_beginMarker s.id) depth
  have hLast :=
    lines_indented hUnit Marker.newline_not_mem_endMarker
      depth
  simp only [Item.entries, List.flatMap_cons,
    List.flatMap_append, List.flatMap_nil, hFirst, hLast,
    hSection.flatMap_lines, List.singleton_append,
    List.append_nil]

/- An item becomes plain lines or one block. -/
theorem Item.blocks_entries
    (hUnit : IsIndentation unit)
    {item : Item}
    (hText : ∀ line ∈ item.generated, ¬ Marker.IsBegin line)
    (hSections : ∀ s ∈ Item.regions [item], s.IsRecoverable) :
    Blocks ((item.entries .marked unit).flatMap Text.lines)
      (Item.regions [item]) := by
  cases item with
  | line depth text =>
      rw [Item.entries, List.flatMap_singleton]
      exact Blocks.of_plain
        (not_isBegin_of_mem_lines_indented hUnit hText)
  | source text =>
      rw [Item.entries, List.flatMap_singleton]
      exact Blocks.of_plain hText
  | region depth s =>
      have hSection : s.IsRecoverable :=
        hSections s List.mem_cons_self
      have hLead := hUnit.indentation depth
      have hId := Marker.markedId?_beginMarker s.id
      have hEnd :=
        Marker.isEnd_append_endMarker
          (Writer.indentation unit depth)
      rw [Item.flatMap_lines_region hUnit depth hSection]
      rw [← Marker.markedId?_append hLead.slash_not_mem,
        ← Writer.indented_of_ne
          (Marker.beginMarker_ne_empty s.id)] at hId
      rw [← Writer.indented_of_ne
        Marker.endMarker_ne_empty] at hEnd
      exact Blocks.of_section hId
        (fun line hLine => (hSection line hLine).2) hEnd
  | gap =>
      have hLines : Text.lines "" = [""] := by
        decide
      simp only [Item.entries, List.flatMap_singleton, hLines]
      exact .plain Marker.not_isBegin_empty .nil

/- Items become a marked text with their sections. -/
theorem Item.blocks_flatMap_entries
    (hUnit : IsIndentation unit)
    {items : List Item}
    (hText :
      ∀ line ∈ items.flatMap Item.generated,
        ¬ Marker.IsBegin line)
    (hSections :
      ∀ s ∈ Item.regions items, s.IsRecoverable) :
    Blocks
      ((items.flatMap (Item.entries .marked unit)).flatMap
        Text.lines)
      (Item.regions items) := by
  induction items with
  | nil =>
      exact .nil
  | cons item items ih =>
      rw [List.flatMap_cons, List.forall_mem_append] at hText
      rw [← List.singleton_append, Item.regions_append]
        at hSections ⊢
      rw [List.forall_mem_append] at hSections
      rw [List.flatMap_append, List.flatMap_append,
        List.flatMap_singleton]
      exact (Item.blocks_entries hUnit hText.1
        hSections.1).append (ih hText.2 hSections.2)

namespace Fragment

/- The marked rendering of a fragment is a marked text. -/
theorem blocks_render
    (hUnit : IsIndentation unit)
    {f : Fragment}
    (hText : f.HasPlainText)
    (hSections : ∀ s ∈ f.emitted, s.IsRecoverable) :
    Blocks (Text.lines (f.render unit .marked)) f.emitted := by
  have hBlocks :=
    Item.blocks_flatMap_entries hUnit hText hSections
  rw [render_eq_unlines]
  by_cases hEntries :
      (f.items 0).flatMap (Item.entries .marked unit) = []
  · rw [hEntries] at hBlocks ⊢
    -- Without any entry the text is one empty line.
    rw [Text.lines_unlines_nil]
    exact .plain Marker.not_isBegin_empty hBlocks
  · rw [Text.lines_unlines hEntries]
    exact hBlocks

/-
  Scanning the marked rendering of a fragment gives back the
  sections that were written, in order and line by line.
-/
theorem scan_render
    (hUnit : IsIndentation unit)
    {f : Fragment}
    (hText : f.HasPlainText)
    (hSections : ∀ s ∈ f.emitted, s.IsRecoverable) :
    scan (f.render unit .marked) = .ok f.emitted := by
  rw [scan_eq_ok_iff]
  exact blocks_render hUnit hText hSections

/- The section for extras of the class below. -/
def extrasId : SectionId :=
  ⟨"extras", by decide⟩

/-
  A documented class with a group as its header, a section
  before it, a method with a body, and a section for extras.
-/
def invoice (notes body extras : List String) : Fragment :=
  .classifier
    { Info.new ⟨0⟩ "Invoice" .classifier with
      documentation := some "// An invoice.\n\n// >> <<"
      annotations := ["@Entity"]
      before := [⟨⟨"notes << // a", by decide⟩, notes⟩]
      qualifiedName := some ⟨["app", "Invoice"]⟩ }
    (some
      (.group (Info.new ⟨1⟩ "header" .other)
        [.simple (Info.new ⟨2⟩ "package" .other)
          "package app;"]))
    none "public class Invoice"
    [.method (Info.new ⟨3⟩ "total" .method)
      "public int total()" false
      (some ⟨⟨"total.body", by decide⟩, body⟩)]
    (some ⟨extrasId, extras⟩)

/- The class with code in its sections can be scanned. -/
theorem scan_render_invoice :
    IsIndentation "  \t" ∧
      (invoice ["// >>", ""] ["  return 1;"] []).HasPlainText ∧
        (∀ s ∈ (invoice ["// >>", ""] ["  return 1;"]
            []).emitted, s.IsRecoverable) ∧
          scan
              ((invoice ["// >>", ""] ["  return 1;"]
                []).render "  \t" .marked) =
            .ok (invoice ["// >>", ""] ["  return 1;"]
              []).emitted := by
  have hUnit : IsIndentation "  \t" := by
    decide +kernel
  have hText :
      (invoice ["// >>", ""] ["  return 1;"]
        []).HasPlainText := by
    decide +kernel
  have hSections :
      ∀ s ∈ (invoice ["// >>", ""] ["  return 1;"]
        []).emitted, s.IsRecoverable := by
    decide +kernel
  exact ⟨hUnit, hText, hSections,
    scan_render hUnit hText hSections⟩

end Fragment

end Palimpsest
