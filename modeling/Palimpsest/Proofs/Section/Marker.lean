import Mathlib.Data.List.TakeWhile
import Palimpsest.Proofs.Text.Search
import Palimpsest.Section.Marker

/-
  How written markers are recognised again.

  A marker is written behind an indentation.  No marker starts
  inside an indentation that is free of slashes, so it changes
  neither which line is a begin marker nor which id it holds.

  Main declarations:
    * `Marker.markedId?_append`
    * `Marker.markedId?_beginMarker`
    * `Marker.isEnd_append`
    * `Marker.isEnd_append_endMarker`
-/

namespace Palimpsest

namespace Marker

------------------------------------------------------------
-- Begin Markers
------------------------------------------------------------

/- No begin marker starts with another sign than a slash. -/
theorem idAtStart?_cons_of_ne
    {c : Char}
    (hc : c ≠ '/')
    (text : List Char) :
    idAtStart? (c :: text) = none := by
  have hOpening :
      opening.toList =
        '/' :: "/ ----------- << ".toList := by
    decide
  unfold idAtStart?
  rw [hOpening]
  simp [Text.dropPrefix?, Ne.symm hc]

/- Text without slashes in front hides no begin marker. -/
theorem leftmostId?_append
    {lead : List Char}
    (hLead : '/' ∉ lead)
    (text : List Char) :
    leftmostId? (lead ++ text) = leftmostId? text := by
  induction lead with
  | nil =>
      rfl
  | cons c lead ih =>
      rw [List.mem_cons, not_or] at hLead
      rw [List.cons_append, leftmostId?,
        idAtStart?_cons_of_ne (Ne.symm hLead.1)]
      exact ih hLead.2

/- The id of a line is the same behind an indentation. -/
theorem markedId?_append
    {lead : String}
    (hLead : '/' ∉ lead.toList)
    (line : String) :
    markedId? (lead ++ line) = markedId? line := by
  unfold markedId?
  rw [String.toList_append, leftmostId?_append hLead]

/- Up to its end, a text without newlines is all one id. -/
theorem leadingId?_append_closing
    {text : List Char}
    (hText : Text.newline ∉ text) :
    leadingId? (text ++ closing.toList) = some text := by
  have hClosing : Text.newline ∉ closing.toList := by
    decide
  have hAll :
      (text ++ closing.toList).takeWhile
          (fun c => decide (c ≠ Text.newline)) =
        text ++ closing.toList := by
    rw [List.takeWhile_eq_self_iff]
    intro c hc
    rw [decide_eq_true_eq]
    intro hEq
    subst hEq
    rcases List.mem_append.mp hc with h | h
    · exact hText h
    · exact hClosing h
  unfold leadingId?
  rw [hAll, Text.beforeLast?_append]

/- The id of a section holds no newline. -/
theorem newline_not_mem_id (id : SectionId) :
    Text.newline ∉ id.text.toList := by
  intro h
  exact id.valid.2.2 Text.newline h (Or.inl rfl)

/- A written begin marker holds no newline. -/
theorem newline_not_mem_beginMarker (id : SectionId) :
    Text.newline ∉ (beginMarker id).toList := by
  have hOpening : Text.newline ∉ opening.toList := by
    decide
  have hClosing : Text.newline ∉ closing.toList := by
    decide
  unfold beginMarker
  simp only [String.toList_append, List.mem_append, not_or]
  exact ⟨⟨hOpening, newline_not_mem_id id⟩, hClosing⟩

/- The id in a begin marker is the one that was written. -/
theorem markedId?_beginMarker (id : SectionId) :
    markedId? (beginMarker id) = some id.text := by
  have hStart :
      idAtStart? (beginMarker id).toList =
        some id.text.toList := by
    unfold idAtStart? beginMarker
    rw [String.toList_append, String.toList_append,
      List.append_assoc,
      Text.dropPrefix?_eq_some_iff.mpr rfl]
    exact leadingId?_append_closing (newline_not_mem_id id)
  unfold markedId?
  cases hText : (beginMarker id).toList with
  | nil =>
      rw [hText] at hStart
      cases hStart
  | cons c text =>
      rw [hText] at hStart
      rw [leftmostId?, hStart]
      simp

/- An empty line is no begin marker. -/
theorem not_isBegin_empty : ¬ IsBegin "" := by
  decide

/- A written begin marker is not empty. -/
theorem beginMarker_ne_empty (id : SectionId) :
    beginMarker id ≠ "" := by
  intro hEmpty
  have hId := markedId?_beginMarker id
  rw [hEmpty] at hId
  exact not_isBegin_empty (Option.isSome_of_eq_some hId)

------------------------------------------------------------
-- End Markers
------------------------------------------------------------

/- A written end marker holds no newline. -/
theorem newline_not_mem_endMarker :
    Text.newline ∉ endMarker.toList := by
  decide

/- A written end marker is not empty. -/
theorem endMarker_ne_empty : endMarker ≠ "" := by
  decide

/- Text without slashes in front hides no end marker. -/
theorem isEnd_append
    {lead : String}
    (hLead : '/' ∉ lead.toList)
    (line : String) :
    IsEnd (lead ++ line) ↔ IsEnd line := by
  have hMarker :
      endMarker.toList = '/' :: endMarker.toList.tail := by
    decide
  unfold IsEnd
  rw [String.toList_append]
  generalize lead.toList = chars at hLead
  induction chars with
  | nil =>
      rfl
  | cons c chars ih =>
      rw [List.mem_cons, not_or] at hLead
      refine Iff.trans ?_ (ih hLead.2)
      rw [List.cons_append, hMarker]
      simp [Text.Occurs, hLead.1]

/- An end marker is one behind any indentation. -/
theorem isEnd_append_endMarker (lead : String) :
    IsEnd (lead ++ endMarker) := by
  unfold IsEnd
  rw [Text.occurs_iff]
  exact ⟨lead.toList, [], by simp⟩

end Marker

end Palimpsest
