import Palimpsest.Text.Lines

/-
  The laws of cutting a text into lines and joining lines.

  Main declarations:
    * `Text.newline_not_mem_of_mem_lines`
    * `Text.lines_eq_singleton`
    * `Text.flatMap_lines_eq_self`
    * `Text.lines_append_of_not_mem`
    * `Text.lines_unlines`
-/

namespace Palimpsest

namespace Text

------------------------------------------------------------
-- Parts Between Separators
------------------------------------------------------------

/- No part of a cut list holds the separator. -/
theorem not_mem_of_mem_splitOn
    {separator : Char}
    {text part : List Char}
    (hPart : part ∈ text.splitOn separator) :
    separator ∉ part := by
  induction text generalizing part with
  | nil =>
      rw [List.splitOn_nil, List.mem_singleton] at hPart
      subst hPart
      simp
  | cons c text ih =>
      rw [List.splitOn_cons_eq_if_modifyHead] at hPart
      by_cases hc : c = separator
      · rw [if_pos (by simpa using hc)] at hPart
        rcases List.mem_cons.mp hPart with hNil | hRest
        · subst hNil
          simp
        · exact ih hRest
      · rw [if_neg (by simpa using hc)] at hPart
        rcases List.exists_cons_of_ne_nil
            (List.splitOn_ne_nil separator text) with
          ⟨first, rest, hSplit⟩
        rw [hSplit, List.modifyHead_cons] at hPart
        rcases List.mem_cons.mp hPart with hFirst | hRest
        · subst hFirst
          have hNot : separator ∉ first :=
            ih (by rw [hSplit]; exact List.mem_cons_self)
          simp [hNot, Ne.symm hc]
        · exact ih (by
            rw [hSplit]
            exact List.mem_cons_of_mem _ hRest)

/- No line of a text holds a newline. -/
theorem newline_not_mem_of_mem_lines
    {text line : String}
    (hLine : line ∈ lines text) :
    newline ∉ line.toList := by
  rcases List.mem_map.mp hLine with ⟨part, hPart, rfl⟩
  rw [String.toList_ofList]
  exact not_mem_of_mem_splitOn hPart

------------------------------------------------------------
-- Lines Of Texts That Are Put Together
------------------------------------------------------------

/- A text without newlines is its own only line. -/
theorem lines_eq_singleton
    {text : String}
    (hText : newline ∉ text.toList) :
    lines text = [text] := by
  unfold lines splitAt
  rw [List.splitOn_eq_singleton hText]
  simp

/- Texts without newlines are their own lines. -/
theorem flatMap_lines_eq_self
    {parts : List String}
    (hParts : ∀ part ∈ parts, newline ∉ part.toList) :
    parts.flatMap lines = parts := by
  induction parts with
  | nil =>
      rfl
  | cons first rest ih =>
      rw [List.forall_mem_cons] at hParts
      rw [List.flatMap_cons, lines_eq_singleton hParts.1,
        ih hParts.2, List.singleton_append]

/- Text without separators in front joins the first part. -/
theorem splitOn_append_of_not_mem
    {separator : Char}
    {lead : List Char}
    (hLead : separator ∉ lead)
    (text : List Char) :
    (lead ++ text).splitOn separator =
      (text.splitOn separator).modifyHead (lead ++ ·) := by
  induction lead with
  | nil =>
      simp only [List.nil_append]
      cases text.splitOn separator <;> rfl
  | cons c lead ih =>
      rw [List.mem_cons, not_or] at hLead
      rw [List.cons_append,
        List.splitOn_cons_eq_if_modifyHead, ih hLead.2,
        if_neg (by simpa using Ne.symm hLead.1)]
      cases text.splitOn separator <;> rfl

/- Text without newlines in front joins the first line. -/
theorem lines_append_of_not_mem
    {lead : String}
    (hLead : newline ∉ lead.toList)
    (text : String) :
    lines (lead ++ text) =
      (lines text).modifyHead (lead ++ ·) := by
  unfold lines splitAt
  rw [String.toList_append, splitOn_append_of_not_mem hLead]
  cases text.toList.splitOn newline with
  | nil =>
      rfl
  | cons first rest =>
      simp [String.ofList_append]

/- The lines of two texts with a newline between them. -/
theorem lines_append_newline
    (first second : List Char) :
    lines (String.ofList (first ++ newline :: second)) =
      lines (String.ofList first) ++
        lines (String.ofList second) := by
  unfold lines splitAt
  simp only [String.toList_ofList]
  rw [List.splitOn_append_cons_self, List.map_append]

/- Joining one line more. -/
theorem unlines_cons_cons
    (first second : String)
    (rest : List String) :
    unlines (first :: second :: rest) =
      String.ofList
        (first.toList ++
          newline :: (unlines (second :: rest)).toList) := by
  have hNewline : "\n".toList = [newline] := by
    decide
  unfold unlines
  rw [toList_joinWith]
  unfold joinWith
  rw [hNewline]
  simp [List.intercalate_cons_cons]

/-
  The lines of a joined text are the lines of its parts, one
  part after another.  A part that holds newlines counts with
  all its lines.
-/
theorem lines_unlines
    {parts : List String}
    (hParts : parts ≠ []) :
    lines (unlines parts) = parts.flatMap lines := by
  induction parts with
  | nil =>
      exact absurd rfl hParts
  | cons first rest ih =>
      cases rest with
      | nil =>
          simp [unlines, joinWith]
      | cons second rest =>
          rw [unlines_cons_cons, lines_append_newline,
            String.ofList_toList, String.ofList_toList,
            ih (by simp)]
          simp only [List.flatMap_cons]

/- The text of no lines has one empty line. -/
theorem lines_unlines_nil :
    lines (unlines []) = [""] := by
  decide

end Text

end Palimpsest
