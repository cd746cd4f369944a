import Mathlib.Data.List.Basic
import Palimpsest.Proofs.Text.Search
import Palimpsest.Text.Lines

/-
  Patterns of texts and the search for them.

  A pattern is a row of parts: a character a number of times,
  or a stretch of characters without a newline, which is
  captured.  There can be several matches at one place; a
  match with a longer stretch is preferred to one with a
  shorter stretch.  The search takes the preferred match at
  the leftmost place that has one.

  Main declarations:
    * `Pattern`
    * `Pattern.matchesOf`
    * `Pattern.search?`
    * `Pattern.matchesOf_append`
    * `Pattern.search?_literal`
    * `Pattern.head?_matchesOf_stretch`
-/

namespace Palimpsest

------------------------------------------------------------
-- Patterns
------------------------------------------------------------

/- A part of a pattern. -/
inductive Pattern.Part where
| times (count : Nat) (c : Char)
| stretch
deriving DecidableEq, Repr

/- The parts that a text must show one after another. -/
abbrev Pattern :=
  List Pattern.Part

namespace Pattern

------------------------------------------------------------
-- Matching
------------------------------------------------------------

/-
  The ways to cut a text behind characters of its first line,
  each with what is left over: the longest stretch first.
-/
def stretches :
    List Char → List (List Char × List Char)
| [] => [([], [])]
| c :: text =>
    if c = Text.newline then
      [([], c :: text)]
    else
      (stretches text).map (fun cut => (c :: cut.1, cut.2)) ++
        [([], c :: text)]

/-
  What the matches of parts at the start of a text capture,
  the preferred match first.
-/
def matchesOf :
    Pattern → List Char → List (List (List Char))
| [], _ => [[]]
| .times count c :: parts, text =>
    match Text.dropPrefix? (List.replicate count c) text with
    | none => []
    | some rest => matchesOf parts rest
| .stretch :: parts, text =>
    (stretches text).flatMap (fun cut =>
      (matchesOf parts cut.2).map (cut.1 :: ·))

/- The captures of the preferred match at the leftmost place. -/
def search?
    (pattern : Pattern) :
    List Char → Option (List (List Char))
| [] => (matchesOf pattern []).head?
| c :: text =>
    match (matchesOf pattern (c :: text)).head? with
    | some captured => some captured
    | none => search? pattern text

------------------------------------------------------------
-- Parts That Capture Nothing
------------------------------------------------------------

/- The characters that parts without a stretch ask for. -/
def spelled : Pattern → List Char
| [] => []
| .times count c :: parts =>
    List.replicate count c ++ spelled parts
| .stretch :: parts => spelled parts

/- Parts that capture nothing. -/
def IsLiteral (parts : Pattern) : Prop :=
  Part.stretch ∉ parts

instance (parts : Pattern) :
    Decidable (IsLiteral parts) := by
  unfold IsLiteral
  infer_instance

/- Literal parts in front match the characters they spell. -/
theorem matchesOf_append
    {front : Pattern}
    (hFront : IsLiteral front)
    (parts : Pattern)
    (text : List Char) :
    matchesOf (front ++ parts) text =
      match Text.dropPrefix? (spelled front) text with
      | none => []
      | some rest => matchesOf parts rest := by
  induction front generalizing text with
  | nil =>
      rfl
  | cons part front ih =>
      unfold IsLiteral at hFront ih
      rw [List.mem_cons, not_or] at hFront
      cases part with
      | times count c =>
          rw [List.cons_append, matchesOf, spelled,
            Text.dropPrefix?_append]
          cases Text.dropPrefix? (List.replicate count c) text
            with
          | none =>
              rfl
          | some rest =>
              exact ih hFront.2 rest
      | stretch =>
          exact absurd rfl hFront.1

/- Literal parts match once, where their characters stand. -/
theorem matchesOf_literal
    {parts : Pattern}
    (hParts : IsLiteral parts)
    (text : List Char) :
    matchesOf parts text =
      if (spelled parts).isPrefixOf text then [[]] else [] := by
  have hMatches := matchesOf_append hParts [] text
  rw [List.append_nil] at hMatches
  rw [hMatches]
  by_cases hPrefix : (spelled parts).isPrefixOf text
  · rcases List.isPrefixOf_iff_prefix.mp hPrefix with
      ⟨rest, hRest⟩
    rw [if_pos hPrefix,
      Text.dropPrefix?_eq_some_iff.mpr hRest.symm]
    rfl
  · rw [if_neg hPrefix]
    cases hDrop : Text.dropPrefix? (spelled parts) text with
    | none =>
        rfl
    | some rest =>
        rw [Text.dropPrefix?_eq_some_iff] at hDrop
        exact absurd
          (List.isPrefixOf_iff_prefix.mpr ⟨rest, hDrop.symm⟩)
          hPrefix

/- Literal parts are found where their characters occur. -/
theorem search?_literal
    {parts : Pattern}
    (hParts : IsLiteral parts)
    (text : List Char) :
    search? parts text =
      if Text.Occurs (spelled parts) text then
        some []
      else
        none := by
  induction text with
  | nil =>
      rw [search?, matchesOf_literal hParts]
      by_cases hNone : spelled parts = [] <;>
        simp [Text.Occurs, hNone]
  | cons c text ih =>
      rw [search?, matchesOf_literal hParts, ih]
      unfold Text.Occurs
      by_cases hHere : (spelled parts).isPrefixOf (c :: text)
      · rw [if_pos hHere, if_pos (Or.inl hHere)]
        rfl
      · rw [if_neg hHere]
        simp [hHere]

------------------------------------------------------------
-- A Stretch Before Literal Parts
------------------------------------------------------------

/-
  A pattern without newlines stands at the front of a text
  exactly when it stands at the front of its first line.
-/
theorem isPrefixOf_takeWhile
    {pattern : List Char}
    (hPattern : Text.newline ∉ pattern)
    (text : List Char) :
    pattern.isPrefixOf
        (text.takeWhile (fun c => decide (c ≠ Text.newline))) =
      pattern.isPrefixOf text := by
  induction pattern generalizing text with
  | nil =>
      simp
  | cons p pattern ih =>
      rw [List.mem_cons, not_or] at hPattern
      cases text with
      | nil =>
          rfl
      | cons c text =>
          by_cases hc : c = Text.newline
          · subst hc
            simp [List.isPrefixOf_cons_cons, Ne.symm hPattern.1]
          · rw [List.takeWhile_cons_of_pos (by simpa using hc),
              List.isPrefixOf_cons_cons, List.isPrefixOf_cons_cons,
              ih hPattern.2]

/- A stretch and literal parts behind it capture the stretch. -/
theorem map_cons_matchesOf
    {parts : Pattern}
    (hParts : IsLiteral parts)
    (cut : List Char × List Char) :
    (matchesOf parts cut.2).map (cut.1 :: ·) =
      if (spelled parts).isPrefixOf cut.2 then
        [[cut.1]]
      else
        [] := by
  rw [matchesOf_literal hParts]
  split <;> rfl

/- One character more in front of every stretch. -/
theorem flatMap_stretches_cons
    {parts : Pattern}
    (hParts : IsLiteral parts)
    (c : Char)
    (cuts : List (List Char × List Char)) :
    (cuts.map (fun cut => (c :: cut.1, cut.2))).flatMap
        (fun cut => (matchesOf parts cut.2).map (cut.1 :: ·)) =
      (cuts.flatMap (fun cut =>
        (matchesOf parts cut.2).map (cut.1 :: ·))).map
          (List.map (c :: ·)) := by
  rw [List.flatMap_map, List.map_flatMap]
  apply List.flatMap_congr
  intro cut _
  rw [map_cons_matchesOf hParts, map_cons_matchesOf hParts]
  split <;> rfl

/-
  The preferred match of a stretch and literal parts captures
  what stands in front of the last occurrence of the literal
  characters in the first line.
-/
theorem head?_matchesOf_stretch
    {parts : Pattern}
    (hParts : IsLiteral parts)
    (hSome : spelled parts ≠ [])
    (hLine : Text.newline ∉ spelled parts)
    (text : List Char) :
    (matchesOf (.stretch :: parts) text).head? =
      (Text.beforeLast? (spelled parts)
        (text.takeWhile
          (fun c => decide (c ≠ Text.newline)))).map
            (fun captured => [captured]) := by
  induction text with
  | nil =>
      simp [matchesOf, stretches, matchesOf_literal hParts,
        hSome, Text.beforeLast?]
  | cons c text ih =>
      have hHere := isPrefixOf_takeWhile hLine (c :: text)
      rw [matchesOf] at ih ⊢
      by_cases hc : c = Text.newline
      · rw [List.takeWhile_cons_of_neg (by simpa using hc)]
          at hHere ⊢
        rw [stretches, if_pos hc, List.flatMap_singleton,
          map_cons_matchesOf hParts, ← hHere]
        simp [hSome, Text.beforeLast?]
      · rw [List.takeWhile_cons_of_pos (by simpa using hc)]
          at hHere ⊢
        rw [stretches, if_neg hc, List.flatMap_append,
          flatMap_stretches_cons hParts, List.head?_append,
          List.head?_map, ih, List.flatMap_singleton,
          map_cons_matchesOf hParts, ← hHere,
          Text.beforeLast?]
        cases Text.beforeLast? (spelled parts)
            (text.takeWhile
              (fun c => decide (c ≠ Text.newline))) with
        | some captured =>
            rfl
        | none =>
            simp only [Option.map_none, Option.none_or]
            split <;> rfl

end Pattern

end Palimpsest
