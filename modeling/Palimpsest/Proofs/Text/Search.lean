import Mathlib.Tactic.ByContra
import Palimpsest.Text.Search

/-
  The laws of taking a pattern off the front of a text and of
  searching for its last occurrence.

  Main declarations:
    * `Text.dropPrefix?_append`
    * `Text.beforeLast?_concat`
    * `Text.occurs_concat_iff`
    * `Text.beforeLast?_eq_none_iff`
    * `Text.beforeLast?_eq_some_iff`
    * `Text.beforeLast?_append`
-/

namespace Palimpsest

namespace Text

------------------------------------------------------------
-- Leading Text
------------------------------------------------------------

/- Two patterns in a row are taken off one after the other. -/
theorem dropPrefix?_append
    (first second text : List Char) :
    dropPrefix? (first ++ second) text =
      (dropPrefix? first text).bind (dropPrefix? second) := by
  induction first generalizing text with
  | nil =>
      rfl
  | cons p first ih =>
      cases text with
      | nil =>
          rfl
      | cons c text =>
          rw [List.cons_append, dropPrefix?, dropPrefix?]
          split
          · exact ih text
          · rfl

------------------------------------------------------------
-- The Last Occurrence
------------------------------------------------------------

/- There is no last occurrence when there is none at all. -/
theorem beforeLast?_eq_none_iff
    {pattern text : List Char} :
    beforeLast? pattern text = none ↔
      ¬ Occurs pattern text := by
  induction text with
  | nil =>
      by_cases h : pattern = [] <;>
        simp [beforeLast?, Occurs, h]
  | cons c text ih =>
      unfold beforeLast? Occurs
      cases hRest : beforeLast? pattern text with
      | none =>
          have hNot : ¬ Occurs pattern text := ih.mp hRest
          by_cases hHere : pattern.isPrefixOf (c :: text) <;>
            simp [hHere, hNot]
      | some before =>
          have hOccurs : Occurs pattern text := by
            by_contra hNot
            rw [ih.mpr hNot] at hRest
            cases hRest
          simp [hOccurs]

/-
  What is found stands before an occurrence, and no other
  occurrence has a longer text before it.
-/
theorem split_of_beforeLast?_eq_some
    {pattern text before : List Char}
    (hFound : beforeLast? pattern text = some before) :
    (∃ after, text = before ++ pattern ++ after) ∧
      ∀ other after, text = other ++ pattern ++ after →
        other.length ≤ before.length := by
  induction text generalizing before with
  | nil =>
      by_cases h : pattern = []
      · subst h
        simp only [beforeLast?, if_true,
          Option.some.injEq] at hFound
        subst hFound
        refine ⟨⟨[], rfl⟩, ?_⟩
        intro other after hSplit
        simp at hSplit
        simp [hSplit.1]
      · simp [beforeLast?, h] at hFound
  | cons c text ih =>
      unfold beforeLast? at hFound
      cases hRest : beforeLast? pattern text with
      | some found =>
          simp only [hRest, Option.some.injEq] at hFound
          subst hFound
          rcases ih hRest with ⟨⟨after, hSplit⟩, hLongest⟩
          refine ⟨⟨after, by simp [hSplit]⟩, ?_⟩
          intro other rest hOther
          cases other with
          | nil => simp
          | cons d other =>
              simp only [List.cons_append,
                List.cons.injEq] at hOther
              have hLe := hLongest other rest hOther.2
              simpa using hLe
      | none =>
          have hNot : ¬ Occurs pattern text :=
            beforeLast?_eq_none_iff.mp hRest
          simp only [hRest] at hFound
          split at hFound
          · rename_i hHere
            cases hFound
            rcases List.isPrefixOf_iff_prefix.mp hHere with
              ⟨after, hAfter⟩
            refine ⟨⟨after, by simp [hAfter]⟩, ?_⟩
            intro other rest hOther
            cases other with
            | nil => simp
            | cons d other =>
                simp only [List.cons_append,
                  List.cons.injEq] at hOther
                exact absurd
                  (occurs_iff.mpr ⟨other, rest, hOther.2⟩)
                  hNot
          · cases hFound

/-
  The text before the last occurrence of a pattern is the
  longest text that stands before any of its occurrences.
-/
theorem beforeLast?_eq_some_iff
    {pattern text before : List Char} :
    beforeLast? pattern text = some before ↔
      (∃ after, text = before ++ pattern ++ after) ∧
        ∀ other after, text = other ++ pattern ++ after →
          other.length ≤ before.length := by
  constructor
  · exact split_of_beforeLast?_eq_some
  · rintro ⟨⟨after, hSplit⟩, hLongest⟩
    cases hFound : beforeLast? pattern text with
    | none =>
        exact absurd (occurs_iff.mpr ⟨before, after, hSplit⟩)
          (beforeLast?_eq_none_iff.mp hFound)
    | some found =>
        rcases split_of_beforeLast?_eq_some hFound with
          ⟨⟨rest, hOther⟩, hFarthest⟩
        have hLength : found.length = before.length :=
          Nat.le_antisymm (hLongest found rest hOther)
            (hFarthest before after hSplit)
        have hEq : found ++ (pattern ++ rest) =
            before ++ (pattern ++ after) := by
          rw [← List.append_assoc, ← List.append_assoc,
            ← hOther, ← hSplit]
        rw [(List.append_inj hEq hLength).1]

/- A pattern at the very end is its own last occurrence. -/
theorem beforeLast?_append
    (text pattern : List Char) :
    beforeLast? pattern (text ++ pattern) = some text := by
  rw [beforeLast?_eq_some_iff]
  refine ⟨⟨[], by simp⟩, ?_⟩
  intro other after hSplit
  have hLength := congrArg List.length hSplit
  simp only [List.length_append] at hLength
  omega

------------------------------------------------------------
-- A Character Behind A Text
------------------------------------------------------------

section Concat

variable {pattern : List Char} {c : Char}

/- A pattern without the last character stands before it. -/
theorem isPrefixOf_concat
    (hc : c ∉ pattern)
    (text : List Char) :
    pattern.isPrefixOf (text ++ [c]) =
      pattern.isPrefixOf text := by
  rw [Bool.eq_iff_iff, List.isPrefixOf_iff_prefix,
    List.isPrefixOf_iff_prefix, List.prefix_concat_iff]
  refine or_iff_right_of_imp fun hSame => ?_
  exact absurd (by rw [hSame]; simp) hc

theorem dropPrefix?_concat
    (hc : c ∉ pattern)
    (text : List Char) :
    dropPrefix? pattern (text ++ [c]) =
      (dropPrefix? pattern text).map (· ++ [c]) := by
  induction pattern generalizing text with
  | nil =>
      rfl
  | cons p pattern ih =>
      rw [List.mem_cons, not_or] at hc
      cases text with
      | nil =>
          simp [dropPrefix?, Ne.symm hc.1]
      | cons d text =>
          rw [List.cons_append, dropPrefix?, dropPrefix?]
          split
          · exact ih hc.2 text
          · rfl

theorem beforeLast?_concat
    (hSome : pattern ≠ [])
    (hc : c ∉ pattern)
    (text : List Char) :
    beforeLast? pattern (text ++ [c]) =
      beforeLast? pattern text := by
  induction text with
  | nil =>
      have hNone : pattern.isPrefixOf [c] = false := by
        rw [← List.nil_append [c], isPrefixOf_concat hc,
          ← Bool.not_eq_true, List.isPrefixOf_iff_prefix,
          List.prefix_nil]
        exact hSome
      simp [beforeLast?, hSome, hNone]
  | cons d text ih =>
      rw [List.cons_append, beforeLast?, beforeLast?, ih,
        ← List.cons_append, isPrefixOf_concat hc]

theorem occurs_concat_iff
    (hSome : pattern ≠ [])
    (hc : c ∉ pattern)
    (text : List Char) :
    Occurs pattern (text ++ [c]) ↔ Occurs pattern text := by
  rw [← not_iff_not, ← beforeLast?_eq_none_iff,
    ← beforeLast?_eq_none_iff, beforeLast?_concat hSome hc]

end Concat

end Text

end Palimpsest
