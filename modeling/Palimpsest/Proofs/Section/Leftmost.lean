import Mathlib.Data.List.TakeWhile
import Palimpsest.Proofs.Text.Pattern
import Palimpsest.Section.Marker

/-
  Which of several markers in a text is recognised.

  The begin marker found in a text is the leftmost one that
  is closed before the next newline, and its id reaches to the
  last closing part of its line.  An end marker is found
  wherever it occurs.  This is what a search for the patterns
  of the markers finds, which takes the leftmost match and
  prefers longer ids.

  Main declarations:
    * `Marker.beginPattern`
    * `Marker.ShowsId`
    * `Marker.leftmostId?_eq_some_iff`
    * `Marker.search?_beginPattern`
    * `Marker.recognised_leftmost_and_greedy`
-/

namespace Palimpsest

namespace Marker

------------------------------------------------------------
-- The Id At One Place
------------------------------------------------------------

/- A text that starts with an id and the part that closes it. -/
def LeadsWith (text id : List Char) : Prop :=
  Text.newline ∉ id ∧
    ∃ back, text = id ++ closing.toList ++ back

/- An id that is closed in a text is closed in its first line. -/
theorem leadsWith_iff_takeWhile {text id : List Char} :
    LeadsWith text id ↔
      ∃ back,
        text.takeWhile (fun c => decide (c ≠ Text.newline)) =
          id ++ closing.toList ++ back := by
  have hClosing : Text.newline ∉ closing.toList := by
    decide
  constructor
  · rintro ⟨hId, back, rfl⟩
    have hFront : ∀ c ∈ id ++ closing.toList,
        decide (c ≠ Text.newline) = true := by
      intro c hc
      rw [decide_eq_true_eq]
      rintro rfl
      exact (List.mem_append.mp hc).elim hId hClosing
    exact ⟨_, List.takeWhile_append_of_pos hFront⟩
  · rintro ⟨back, hLine⟩
    refine ⟨fun hMem => ?_, back ++ text.dropWhile
      (fun c => decide (c ≠ Text.newline)), ?_⟩
    · have hIn : Text.newline ∈ text.takeWhile
          (fun c => decide (c ≠ Text.newline)) := by
        rw [hLine]
        simp [hMem]
      simpa using List.mem_takeWhile_imp hIn
    · rw [← List.append_assoc, ← hLine,
        List.takeWhile_append_dropWhile]

/- The longest id is taken. -/
theorem leadingId?_eq_some_iff {text id : List Char} :
    leadingId? text = some id ↔
      LeadsWith text id ∧
        ∀ other, LeadsWith text other →
          other.length ≤ id.length := by
  unfold leadingId?
  rw [Text.beforeLast?_eq_some_iff]
  simp only [leadsWith_iff_takeWhile, forall_exists_index]

/- Only if there is no id, none is taken. -/
theorem leadingId?_eq_none_iff {text : List Char} :
    leadingId? text = none ↔ ∀ id, ¬ LeadsWith text id := by
  unfold leadingId?
  rw [Text.beforeLast?_eq_none_iff, Text.occurs_iff]
  simp only [leadsWith_iff_takeWhile, not_exists]

/- An id stands behind the opening part. -/
theorem idAtStart?_eq_some_iff {text id : List Char} :
    idAtStart? text = some id ↔
      ∃ rest,
        text = opening.toList ++ rest ∧
          leadingId? rest = some id := by
  unfold idAtStart?
  rw [Option.bind_eq_some_iff]
  simp only [Text.dropPrefix?_eq_some_iff]

------------------------------------------------------------
-- The Leftmost Place
------------------------------------------------------------

/- A text has an id behind a front. -/
def HasIdAt (text front id : List Char) : Prop :=
  ∃ rest,
    text = front ++ opening.toList ++ rest ∧
      leadingId? rest = some id

/- No text without characters has an id. -/
theorem not_hasIdAt_empty
    (front id : List Char) :
    ¬ HasIdAt [] front id := by
  have hOpening : opening.toList ≠ [] := by
    decide
  rintro ⟨rest, hText, _⟩
  have hFront := (List.append_eq_nil_iff.mp hText.symm).1
  exact hOpening (List.append_eq_nil_iff.mp hFront).2

/- Without a front the id is at the start. -/
theorem hasIdAt_nil_iff {text id : List Char} :
    HasIdAt text [] id ↔ idAtStart? text = some id := by
  rw [idAtStart?_eq_some_iff]
  rfl

/- One character in front of a text is one of its front. -/
theorem hasIdAt_cons_iff
    {c : Char}
    {text front id : List Char} :
    HasIdAt (c :: text) (c :: front) id ↔
      HasIdAt text front id := by
  simp [HasIdAt]

/- If no id is at the start, there is a character before it. -/
theorem exists_cons_of_hasIdAt
    {c : Char}
    {text front id : List Char}
    (hHere : idAtStart? (c :: text) = none)
    (hId : HasIdAt (c :: text) front id) :
    ∃ more, front = c :: more ∧ HasIdAt text more id := by
  cases front with
  | nil =>
      rw [hasIdAt_nil_iff, hHere] at hId
      cases hId
  | cons d more =>
      have hFirst : c = d := by
        rcases hId with ⟨rest, hText, _⟩
        exact (List.cons.inj hText).1
      subst hFirst
      exact ⟨more, rfl, hasIdAt_cons_iff.mp hId⟩

/- The id with the shortest front is taken. -/
theorem leftmostId?_eq_some_iff {text id : List Char} :
    leftmostId? text = some id ↔
      ∃ front,
        HasIdAt text front id ∧
          ∀ other found, HasIdAt text other found →
            front.length ≤ other.length := by
  induction text with
  | nil =>
      refine iff_of_false nofun ?_
      rintro ⟨front, hId, _⟩
      exact not_hasIdAt_empty front id hId
  | cons c text ih =>
      rw [leftmostId?]
      cases hHere : idAtStart? (c :: text) with
      | some found =>
          have hFound := hasIdAt_nil_iff.mpr hHere
          constructor
          · intro hSame
            cases hSame
            exact ⟨[], hFound, fun _ _ _ => Nat.zero_le _⟩
          · rintro ⟨front, hId, hFirst⟩
            have hNil : front = [] :=
              List.length_eq_zero_iff.mp
                (Nat.le_zero.mp (hFirst [] found hFound))
            rw [hNil, hasIdAt_nil_iff, hHere] at hId
            exact hId
      | none =>
          dsimp only
          rw [ih]
          constructor
          · rintro ⟨front, hId, hFirst⟩
            refine ⟨c :: front, hasIdAt_cons_iff.mpr hId,
              fun other found hOther => ?_⟩
            rcases exists_cons_of_hasIdAt hHere hOther with
              ⟨more, rfl, hMore⟩
            exact Nat.succ_le_succ (hFirst more found hMore)
          · rintro ⟨front, hId, hFirst⟩
            rcases exists_cons_of_hasIdAt hHere hId with
              ⟨more, rfl, hMore⟩
            refine ⟨more, hMore, fun other found hOther => ?_⟩
            exact Nat.le_of_succ_le_succ
              (hFirst (c :: other) found
                (hasIdAt_cons_iff.mpr hOther))

/- Only if there is no id anywhere, none is taken. -/
theorem leftmostId?_eq_none_iff {text : List Char} :
    leftmostId? text = none ↔
      ∀ front id, ¬ HasIdAt text front id := by
  induction text with
  | nil =>
      exact iff_of_true rfl not_hasIdAt_empty
  | cons c text ih =>
      rw [leftmostId?]
      cases hHere : idAtStart? (c :: text) with
      | some found =>
          have hFound := hasIdAt_nil_iff.mpr hHere
          exact iff_of_false nofun
            (fun hNone => hNone [] found hFound)
      | none =>
          dsimp only
          rw [ih]
          constructor
          · intro hNone front id hId
            rcases exists_cons_of_hasIdAt hHere hId with
              ⟨more, _, hMore⟩
            exact hNone more id hMore
          · intro hNone front id hId
            exact hNone (c :: front) id
              (hasIdAt_cons_iff.mpr hId)

------------------------------------------------------------
-- Searching For The Patterns
------------------------------------------------------------

/- The pattern of begin markers; the id is captured. -/
def beginPattern : Pattern :=
  [.times 2 '/', .times 1 ' ', .times 11 '-', .times 1 ' ',
   .times 2 '<', .times 1 ' ', .stretch, .times 1 ' ',
   .times 2 '>']

/- The pattern of end markers. -/
def endPattern : Pattern :=
  [.times 2 '/', .times 1 ' ', .times 11 '-', .times 1 ' ',
   .times 2 '>']

/- The preferred match at one place captures the id there. -/
theorem head?_matchesOf_beginPattern (text : List Char) :
    (Pattern.matchesOf beginPattern text).head? =
      (idAtStart? text).map (fun id => [id]) := by
  have hFront : Pattern.IsLiteral (beginPattern.take 6) := by
    decide
  have hBack : Pattern.IsLiteral (beginPattern.drop 7) := by
    decide
  have hParts :
      beginPattern =
        beginPattern.take 6 ++
          .stretch :: beginPattern.drop 7 :=
    rfl
  have hOpening :
      Pattern.spelled (beginPattern.take 6) =
        opening.toList := by
    decide
  have hClosing :
      Pattern.spelled (beginPattern.drop 7) =
        closing.toList := by
    decide
  rw [hParts, Pattern.matchesOf_append hFront, hOpening]
  unfold idAtStart? leadingId?
  cases Text.dropPrefix? opening.toList text with
  | none =>
      rfl
  | some rest =>
      have hMatch := Pattern.head?_matchesOf_stretch hBack
        (by decide) (by decide) rest
      rw [hClosing] at hMatch
      exact hMatch

/- The search for the pattern captures the leftmost id. -/
theorem search?_beginPattern (text : List Char) :
    Pattern.search? beginPattern text =
      (leftmostId? text).map (fun id => [id]) := by
  induction text with
  | nil =>
      rfl
  | cons c text ih =>
      rw [Pattern.search?, head?_matchesOf_beginPattern,
        leftmostId?, ih]
      cases idAtStart? (c :: text) <;> rfl

/- The search for the pattern finds end markers. -/
theorem isSome_search?_endPattern_iff (line : String) :
    (Pattern.search? endPattern line.toList).isSome ↔
      IsEnd line := by
  have hSpelled :
      Pattern.spelled endPattern = endMarker.toList := by
    decide
  unfold IsEnd
  rw [Pattern.search?_literal (by decide), hSpelled]
  split <;> simp [*]

------------------------------------------------------------
-- Lines With Markers
------------------------------------------------------------

/-
  A line is cut around a begin marker: behind the front stands
  a marker with the id, which is closed in the same line.
-/
def ShowsId (line front id : String) : Prop :=
  Text.newline ∉ id.toList ∧
    ∃ back,
      line =
        front ++ "// ----------- << " ++ id ++ " >>" ++ back

/- The id that a line shows leads what is behind the front. -/
theorem showsId_iff {line front id : String} :
    ShowsId line front id ↔
      ∃ rest,
        line.toList =
            front.toList ++ opening.toList ++ rest ∧
          LeadsWith rest id.toList := by
  have hOpening :
      "// ----------- << ".toList = opening.toList := by
    decide
  have hClosing : " >>".toList = closing.toList :=
    rfl
  unfold ShowsId LeadsWith
  constructor
  · rintro ⟨hId, back, rfl⟩
    exact ⟨_, by simp [← hOpening, ← hClosing], hId,
      back.toList, rfl⟩
  · rintro ⟨rest, hLine, hId, back, rfl⟩
    refine ⟨hId, String.ofList back, String.toList_inj.mp ?_⟩
    rw [hLine]
    simp [← hOpening, ← hClosing]

/- Where an id is taken, one is shown, and the other way. -/
theorem exists_hasIdAt_iff {line front : String} :
    (∃ found, HasIdAt line.toList front.toList found) ↔
      ∃ id, ShowsId line front id := by
  constructor
  · rintro ⟨found, rest, hLine, hFound⟩
    have hLeads := (leadingId?_eq_some_iff.mp hFound).1
    refine ⟨String.ofList found,
      showsId_iff.mpr ⟨rest, hLine, ?_⟩⟩
    rwa [String.toList_ofList]
  · rintro ⟨id, hShows⟩
    rcases showsId_iff.mp hShows with ⟨rest, hLine, hLeads⟩
    cases hFound : leadingId? rest with
    | none =>
        exact absurd hLeads
          (leadingId?_eq_none_iff.mp hFound _)
    | some found =>
        exact ⟨found, rest, hLine, hFound⟩

/- The id that is taken at a place is the longest shown there. -/
theorem hasIdAt_iff {line front id : String} :
    HasIdAt line.toList front.toList id.toList ↔
      ShowsId line front id ∧
        ∀ other, ShowsId line front other →
          other.length ≤ id.length := by
  constructor
  · rintro ⟨rest, hLine, hId⟩
    rw [leadingId?_eq_some_iff] at hId
    refine ⟨showsId_iff.mpr ⟨rest, hLine, hId.1⟩,
      fun other hOther => ?_⟩
    rcases showsId_iff.mp hOther with ⟨more, hSame, hLeads⟩
    rw [hLine, List.append_cancel_left_eq] at hSame
    rw [← hSame] at hLeads
    simpa only [String.length_toList] using
      hId.2 other.toList hLeads
  · rintro ⟨hShows, hLongest⟩
    rcases showsId_iff.mp hShows with ⟨rest, hLine, hLeads⟩
    refine ⟨rest, hLine, leadingId?_eq_some_iff.mpr
      ⟨hLeads, fun other hOther => ?_⟩⟩
    have hLength := hLongest (String.ofList other)
      (showsId_iff.mpr ⟨rest, hLine, by
        rwa [String.toList_ofList]⟩)
    simpa [← String.length_toList] using hLength

/- The leftmost id has the shortest front and is the longest. -/
theorem markedId?_eq_some_iff {line id : String} :
    markedId? line = some id ↔
      ∃ front,
        ShowsId line front id ∧
          (∀ other found, ShowsId line other found →
            front.length ≤ other.length) ∧
          ∀ other, ShowsId line front other →
            other.length ≤ id.length := by
  have hText :
      markedId? line = some id ↔
        leftmostId? line.toList = some id.toList := by
    unfold markedId?
    rw [Option.map_eq_some_iff]
    constructor
    · rintro ⟨found, hFound, rfl⟩
      rw [hFound, String.toList_ofList]
    · intro hFound
      exact ⟨_, hFound, String.ofList_toList⟩
  rw [hText, leftmostId?_eq_some_iff]
  constructor
  · rintro ⟨front, hId, hFirst⟩
    rw [← String.toList_ofList (l := front)] at hId
    rcases hasIdAt_iff.mp hId with ⟨hShows, hLongest⟩
    refine ⟨_, hShows, fun other found hOther => ?_, hLongest⟩
    rcases exists_hasIdAt_iff.mpr ⟨found, hOther⟩ with
      ⟨taken, hTaken⟩
    simpa only [String.length_toList,
      String.length_ofList] using
      hFirst other.toList taken hTaken
  · rintro ⟨front, hShows, hFirst, hLongest⟩
    refine ⟨front.toList, hasIdAt_iff.mpr ⟨hShows, hLongest⟩,
      fun other taken hTaken => ?_⟩
    rw [← String.toList_ofList (l := other)] at hTaken
    rcases exists_hasIdAt_iff.mp ⟨taken, hTaken⟩ with
      ⟨found, hOther⟩
    simpa [← String.length_toList] using
      hFirst _ found hOther

/- No id is found when none is shown anywhere. -/
theorem markedId?_eq_none_iff {line : String} :
    markedId? line = none ↔
      ∀ front id, ¬ ShowsId line front id := by
  unfold markedId?
  rw [Option.map_eq_none_iff, leftmostId?_eq_none_iff]
  constructor
  · intro hNone front id hShows
    rcases exists_hasIdAt_iff.mpr ⟨id, hShows⟩ with
      ⟨found, hFound⟩
    exact hNone front.toList found hFound
  · intro hNone front found hFound
    rw [← String.toList_ofList (l := front)] at hFound
    rcases exists_hasIdAt_iff.mp ⟨found, hFound⟩ with
      ⟨id, hShows⟩
    exact hNone _ id hShows

/- End markers are found where they occur. -/
theorem isEnd_iff {line : String} :
    IsEnd line ↔
      ∃ front back,
        line = front ++ "// ----------- >>" ++ back := by
  have hMarker : endMarker = "// ----------- >>" := by
    decide
  unfold IsEnd
  rw [Text.occurs_iff, hMarker]
  constructor
  · rintro ⟨front, back, hLine⟩
    refine ⟨String.ofList front, String.ofList back,
      String.toList_inj.mp ?_⟩
    simpa using hLine
  · rintro ⟨front, back, rfl⟩
    exact ⟨front.toList, back.toList, by simp⟩

/-
  In every text, newlines included, the id of a begin marker
  is found when the text can be cut around the marker: the
  front is the shortest for which there is a cut, and the id
  is the longest for that front.  End markers are found where
  they occur.  Both are what the search for the patterns of
  the markers finds.
-/
theorem recognised_leftmost_and_greedy (line : String) :
    (∀ id,
      markedId? line = some id ↔
        ∃ front,
          ShowsId line front id ∧
            (∀ other found, ShowsId line other found →
              front.length ≤ other.length) ∧
            ∀ other, ShowsId line front other →
              other.length ≤ id.length) ∧
      (markedId? line = none ↔
        ∀ front id, ¬ ShowsId line front id) ∧
      (IsEnd line ↔
        ∃ front back,
          line = front ++ "// ----------- >>" ++ back) ∧
      Pattern.search? beginPattern line.toList =
        (markedId? line).map (fun id => [id.toList]) ∧
      ((Pattern.search? endPattern line.toList).isSome ↔
        IsEnd line) := by
  refine ⟨fun id => markedId?_eq_some_iff,
    markedId?_eq_none_iff, isEnd_iff, ?_,
    isSome_search?_endPattern_iff line⟩
  rw [search?_beginPattern]
  unfold markedId?
  rw [Option.map_map]
  simp [Function.comp_def]

/- The first opening is not closed in its line. -/
example :
    markedId?
        "x // ----------- << a\n // ----------- << b >> c >> d" =
      some "b >> c" := by
  decide +kernel

end Marker

end Palimpsest
