/-
  This file defines the searches in a text that the markers
  and the section ids need.

  All searches work on lists of characters.

  Key definitions include:
    * `Palimpsest.Text.dropPrefix?`
    * `Palimpsest.Text.Occurs`
    * `Palimpsest.Text.beforeLast?`
-/

namespace Palimpsest

namespace Text

------------------------------------------------------------
-- Leading Text
------------------------------------------------------------

/- What follows a leading pattern, if the text starts with it. -/
def dropPrefix? :
    List Char → List Char → Option (List Char)
| [], text => some text
| _ :: _, [] => none
| p :: pattern, c :: text =>
    if p = c then dropPrefix? pattern text else none

/- A text starts with the pattern exactly when one is left over. -/
theorem dropPrefix?_eq_some_iff
    {pattern text rest : List Char} :
    dropPrefix? pattern text = some rest ↔
      text = pattern ++ rest := by
  induction pattern generalizing text with
  | nil =>
      simp [dropPrefix?]
  | cons p pattern ih =>
      cases text with
      | nil =>
          simp [dropPrefix?]
      | cons c text =>
          by_cases h : p = c
          · subst h
            simp [dropPrefix?, ih]
          · simp [dropPrefix?, h, Ne.symm h]

------------------------------------------------------------
-- Occurrence
------------------------------------------------------------

/- A pattern occurs in a text when it starts one of its tails. -/
def Occurs (pattern : List Char) : List Char → Prop
| [] => pattern = []
| c :: text =>
    pattern.isPrefixOf (c :: text) = true ∨
      Occurs pattern text

instance decidableOccurs
    (pattern : List Char) :
    (text : List Char) → Decidable (Occurs pattern text)
| [] => by
    unfold Occurs
    infer_instance
| c :: text =>
    have := decidableOccurs pattern text
    by
      unfold Occurs
      infer_instance

/- A pattern occurs exactly when the text can be cut around it. -/
theorem occurs_iff
    {pattern text : List Char} :
    Occurs pattern text ↔
      ∃ before after : List Char,
        text = before ++ pattern ++ after := by
  induction text with
  | nil =>
      constructor
      · intro h
        exact ⟨[], [], by simpa [Occurs] using h⟩
      · rintro ⟨before, after, h⟩
        have hNil := List.append_eq_nil_iff.mp h.symm
        exact (List.append_eq_nil_iff.mp hNil.1).2
  | cons c text ih =>
      unfold Occurs
      rw [ih]
      constructor
      · rintro (h | ⟨before, after, h⟩)
        · rcases List.isPrefixOf_iff_prefix.mp h with
            ⟨after, hAfter⟩
          exact ⟨[], after, by simp [hAfter]⟩
        · exact ⟨c :: before, after, by simp [h]⟩
      · rintro ⟨before, after, h⟩
        cases before with
        | nil =>
            left
            exact List.isPrefixOf_iff_prefix.mpr
              ⟨after, by simpa using h.symm⟩
        | cons d before =>
            right
            simp only [List.cons_append,
              List.cons.injEq] at h
            exact ⟨before, after, h.2⟩

/-
  The text before the last occurrence of a pattern, if the
  pattern occurs at all.
-/
def beforeLast?
    (pattern : List Char) :
    List Char → Option (List Char)
| [] => if pattern = [] then some [] else none
| c :: text =>
    match beforeLast? pattern text with
    | some before => some (c :: before)
    | none =>
        if pattern.isPrefixOf (c :: text) then
          some []
        else
          none

end Text

end Palimpsest
