import Mathlib.Data.List.Induction
import Palimpsest.Proofs.Text.Lines

/-
  The laws of cutting a text at a separator and joining the
  parts again.

  Main declarations:
    * `Text.splitAt_append_cons`
    * `Text.splitAt_joinWith`
    * `Text.joinWith_splitAt`
    * `Text.joinWith_prefix`
    * `Text.unlines_eq_of_flatMap_lines`
-/

namespace Palimpsest

namespace Text

variable {separator : Char}

------------------------------------------------------------
-- Cutting
------------------------------------------------------------

theorem splitAt_ne_nil (text : String) :
    splitAt separator text ≠ [] := by
  unfold splitAt
  simp

theorem not_mem_of_mem_splitAt
    {text part : String}
    (hPart : part ∈ splitAt separator text) :
    separator ∉ part.toList := by
  rcases List.mem_map.mp hPart with ⟨chars, hChars, rfl⟩
  rw [String.toList_ofList]
  exact not_mem_of_mem_splitOn hChars

theorem splitAt_eq_singleton
    {text : String}
    (hText : separator ∉ text.toList) :
    splitAt separator text = [text] := by
  unfold splitAt
  rw [List.splitOn_eq_singleton hText]
  simp

/- A text is cut at every separator in it. -/
theorem splitAt_append_cons
    {text : String}
    {first second : List Char}
    (hText : text.toList = first ++ separator :: second) :
    splitAt separator text =
      splitAt separator (String.ofList first) ++
        splitAt separator (String.ofList second) := by
  unfold splitAt
  rw [hText, List.splitOn_append_cons_self, List.map_append]
  simp only [String.toList_ofList]

------------------------------------------------------------
-- Joining
------------------------------------------------------------

/- Parts without the separator are cut out again. -/
theorem splitAt_joinWith
    {mark : String}
    {parts : List String}
    (hMark : mark.toList = [separator])
    (hParts : ∀ part ∈ parts, separator ∉ part.toList)
    (hNonempty : parts ≠ []) :
    splitAt separator (joinWith mark parts) = parts := by
  have hChars : ∀ chars ∈ parts.map String.toList,
      separator ∉ chars := by
    intro chars hIn
    rcases List.mem_map.mp hIn with ⟨part, hPart, rfl⟩
    exact hParts part hPart
  unfold splitAt
  rw [toList_joinWith, hMark,
    List.splitOn_intercalate separator hChars
      (by simpa using hNonempty)]
  simp

/- The parts of a text, joined, are the text. -/
theorem joinWith_splitAt
    {mark : String}
    (hMark : mark.toList = [separator])
    (text : String) :
    joinWith mark (splitAt separator text) = text := by
  apply String.toList_inj.mp
  have hChars :
      (splitAt separator text).map String.toList =
        text.toList.splitOn separator := by
    unfold splitAt
    rw [List.map_map]
    simp [Function.comp_def]
  rw [toList_joinWith, hMark, hChars,
    List.intercalate_splitOn]

theorem toList_joinWith_cons
    (mark first : String)
    {rest : List String}
    (hRest : rest ≠ []) :
    (joinWith mark (first :: rest)).toList =
      first.toList ++ mark.toList ++
        (joinWith mark rest).toList := by
  cases rest with
  | nil =>
      exact absurd rfl hRest
  | cons second rest =>
      simp only [toList_joinWith, List.map_cons,
        List.intercalate_cons_cons]

/- Two lists of parts have a separator between them. -/
theorem toList_joinWith_append
    (mark : String)
    {parts more : List String}
    (hParts : parts ≠ [])
    (hMore : more ≠ []) :
    (joinWith mark (parts ++ more)).toList =
      (joinWith mark parts).toList ++ mark.toList ++
        (joinWith mark more).toList := by
  induction parts with
  | nil =>
      exact absurd rfl hParts
  | cons first rest ih =>
      cases rest with
      | nil =>
          rw [List.singleton_append,
            toList_joinWith_cons mark first hMore]
          simp
      | cons second rest =>
          rw [List.cons_append,
            toList_joinWith_cons mark first (by simp),
            ih (by simp),
            toList_joinWith_cons mark first (by simp)]
          simp only [List.append_assoc]

/- One part more stands behind one separator more. -/
theorem toList_joinWith_concat
    (mark last : String)
    {parts : List String}
    (hParts : parts ≠ []) :
    (joinWith mark (parts ++ [last])).toList =
      (joinWith mark parts).toList ++ mark.toList ++
        last.toList := by
  rw [toList_joinWith_append mark hParts (by simp)]
  simp

/- A separator in front of the last part, and text after it. -/
theorem joinWith_concat_append
    (mark : String)
    (front : List String)
    (last more : String) :
    joinWith mark (front ++ [last]) ++ more =
      joinWith mark (front ++ [last ++ more]) := by
  apply String.toList_inj.mp
  rw [String.toList_append]
  cases front with
  | nil =>
      simp
  | cons first rest =>
      rw [toList_joinWith_concat mark _ (by simp),
        toList_joinWith_concat mark _ (by simp)]
      simp

/- The first parts of a text are the front of the text. -/
theorem joinWith_prefix
    (mark : String)
    {front parts : List String}
    (hFront : front <+: parts) :
    (joinWith mark front).toList <+:
      (joinWith mark parts).toList := by
  rcases hFront with ⟨back, rfl⟩
  induction back using List.reverseRecOn with
  | nil =>
      exact (List.append_nil front).symm ▸ List.prefix_rfl
  | append_singleton back last ih =>
      by_cases hParts : front ++ back = []
      · rw [List.append_eq_nil_iff] at hParts
        rw [hParts.1]
        simp [joinWith]
      · rw [← List.append_assoc,
          toList_joinWith_concat mark last hParts]
        rw [List.append_assoc]
        exact ih.trans (List.prefix_append _ _)

------------------------------------------------------------
-- Lines
------------------------------------------------------------

/- The lines of a text, joined, are the text. -/
theorem unlines_lines (text : String) :
    unlines (lines text) = text :=
  joinWith_splitAt (by decide) text

/- Lines that have been cut out are not cut again. -/
theorem flatMap_lines_flatMap_lines (parts : List String) :
    (parts.flatMap lines).flatMap lines =
      parts.flatMap lines := by
  apply flatMap_lines_eq_self
  intro line hLine
  rcases List.mem_flatMap.mp hLine with ⟨part, _, hPart⟩
  exact newline_not_mem_of_mem_lines hPart

/- Parts with the same lines are joined to the same text. -/
theorem unlines_eq_of_flatMap_lines
    {parts more : List String}
    (hParts : parts ≠ [])
    (hMore : more ≠ [])
    (hLines : parts.flatMap lines = more.flatMap lines) :
    unlines parts = unlines more := by
  rw [← unlines_lines (unlines parts), lines_unlines hParts,
    hLines, ← lines_unlines hMore, unlines_lines]

end Text

end Palimpsest
