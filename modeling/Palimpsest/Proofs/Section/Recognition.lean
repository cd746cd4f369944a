import Mathlib.Data.List.Infix
import Palimpsest.Proofs.Fragment.Rendering

/-
  How the markers that are written are told apart.

  Behind an indentation a begin marker always gives back its
  id, and an end marker is never taken for a begin marker.  A
  begin marker is also an end marker exactly when its id ends
  in the rule that starts every marker: the rule and the
  closing part of the marker are an end marker then.  So
  inside a section the begin marker of another one is a fault
  unless its id ends that way; if it does, the marker closes
  the section.

  Main declarations:
    * `SectionId.EndsInRule`
    * `Marker.isEnd_beginMarker_iff`
    * `Scanner.feed_beginMarker`
    * `Marker.written_markers_told_apart`
-/

namespace Palimpsest

------------------------------------------------------------
-- Patterns Beside A Character
------------------------------------------------------------

namespace Text

/-
  A pattern does not reach across a character that it does not
  hold.
-/
theorem occurs_of_occurs_append_cons
    {pattern front text : List Char}
    {c : Char}
    (hPattern : c ∉ pattern)
    (hFront : ¬ Occurs pattern front)
    (hOccurs : Occurs pattern (front ++ c :: text)) :
    Occurs pattern text := by
  rcases occurs_iff.mp hOccurs with ⟨before, after, hSplit⟩
  rw [List.append_assoc] at hSplit
  rcases List.append_eq_append_iff.mp hSplit with
    ⟨gap, _, hRest⟩ | ⟨gap, hBefore, hRest⟩
  · -- The pattern starts behind the front part.
    cases gap with
    | nil =>
        cases pattern with
        | nil =>
            exact absurd
              (occurs_iff.mpr ⟨front, [], by simp⟩) hFront
        | cons d pattern =>
            rcases List.cons.inj hRest with ⟨hHead, _⟩
            exact absurd (hHead ▸ List.mem_cons_self) hPattern
    | cons d gap =>
        rcases List.cons.inj hRest with ⟨_, hText⟩
        exact occurs_iff.mpr
          ⟨gap, after, by rw [List.append_assoc]; exact hText⟩
  · -- It starts in the front part, so it ends there too.
    rcases List.append_eq_append_iff.mp hRest with
      ⟨more, hPart, _⟩ | ⟨more, hPart, hText⟩
    · exact absurd
        (occurs_iff.mpr
          ⟨before, more, by
            rw [hBefore, hPart, List.append_assoc]⟩)
        hFront
    · cases more with
      | nil =>
          rw [List.append_nil] at hPart
          exact absurd
            (occurs_iff.mpr
              ⟨before, [], by simp [hBefore, hPart]⟩)
            hFront
      | cons d more =>
          rcases List.cons.inj hText with ⟨hHead, _⟩
          rw [hPart, hHead] at hPattern
          exact absurd (by simp) hPattern

end Text

------------------------------------------------------------
-- Begin Markers That Are End Markers
------------------------------------------------------------

/- An id that ends like the start of a marker. -/
def SectionId.EndsInRule (id : SectionId) : Prop :=
  Marker.rule.toList <:+ id.text.toList

instance (id : SectionId) : Decidable id.EndsInRule := by
  unfold SectionId.EndsInRule
  infer_instance

namespace Marker

/- Only the closing part of a begin marker holds brackets. -/
theorem not_occurs_closing_opening (id : SectionId) :
    ¬ Text.Occurs SectionId.closing
      (opening.toList ++ id.text.toList) := by
  have hOpening :
      opening.toList = "// ----------- <<".toList ++ [' '] := by
    decide
  intro hOccurs
  rw [hOpening, List.append_assoc, List.singleton_append]
    at hOccurs
  exact id.valid.2.1
    (Text.occurs_of_occurs_append_cons (by decide)
      (by decide) hOccurs)

/- Two closing brackets do not reach across a blank. -/
theorem occurs_closing_of_append_eq
    {gap after : List Char}
    (hEq : SectionId.closing ++ after =
      gap ++ ' ' :: SectionId.closing) :
    Text.Occurs SectionId.closing gap := by
  unfold SectionId.closing at hEq
  match gap, hEq with
  | [], hEq => simp at hEq
  | [_], hEq => simp at hEq
  | first :: second :: gap, hEq =>
      simp only [List.cons_append, List.cons.injEq] at hEq
      rcases hEq with ⟨rfl, rfl, _⟩
      exact Text.occurs_iff.mpr ⟨[], gap, rfl⟩

/-
  An end marker in a begin marker ends where the begin marker
  ends: before that there are no two closing brackets.
-/
theorem rule_suffix_of_isEnd
    {id : SectionId}
    (hEnd : IsEnd (beginMarker id)) :
    rule.toList <:+ opening.toList ++ id.text.toList := by
  have hClosing :
      closing.toList = ' ' :: SectionId.closing := by
    decide
  rcases Text.occurs_iff.mp hEnd with ⟨before, after, hSplit⟩
  have hParts :
      (opening.toList ++ id.text.toList) ++
          ' ' :: SectionId.closing =
        (before ++ rule.toList) ++
          ' ' :: (SectionId.closing ++ after) := by
    simpa [beginMarker, endMarker, hClosing] using hSplit
  rcases List.append_eq_append_iff.mp hParts with
    ⟨gap, hBefore, hRest⟩ | ⟨gap, hBefore, hRest⟩
  · cases gap with
    | nil =>
        rw [List.append_nil] at hBefore
        exact ⟨before, hBefore⟩
    | cons c gap =>
        -- A second blank would stand among the brackets.
        rcases List.cons.inj hRest with ⟨_, hBrackets⟩
        have hBlank : ' ' ∈ SectionId.closing := by
          rw [hBrackets]
          simp
        exact absurd hBlank (by decide)
  · cases gap with
    | nil =>
        rw [List.append_nil] at hBefore
        exact ⟨before, hBefore.symm⟩
    | cons c gap =>
        -- Brackets would stand before the closing part.
        rcases List.cons.inj hRest with ⟨_, hBrackets⟩
        rcases Text.occurs_iff.mp
            (occurs_closing_of_append_eq hBrackets) with
          ⟨left, right, hGap⟩
        refine absurd (Text.occurs_iff.mpr ?_)
          (not_occurs_closing_opening id)
        exact ⟨before ++ rule.toList ++ c :: left, right, by
          rw [hBefore, hGap]; simp⟩

/- No end of the opening part is a start of the rule. -/
theorem eq_nil_of_suffix_opening
    {text : List Char}
    (hSuffix : text <:+ opening.toList)
    (hStart : text <+: rule.toList) :
    text = [] := by
  have hAll : ∀ start ∈ rule.toList.inits,
      start <:+ opening.toList → start = [] := by
    decide
  exact hAll text ((List.mem_inits _ _).mpr hStart) hSuffix

/-
  A begin marker is an end marker exactly when its id ends in
  the rule that starts every marker.
-/
theorem isEnd_beginMarker_iff (id : SectionId) :
    IsEnd (beginMarker id) ↔ id.EndsInRule := by
  constructor
  · intro hEnd
    have hRule := rule_suffix_of_isEnd hEnd
    rcases List.suffix_or_suffix_of_suffix hRule
        (List.suffix_append _ _) with hInId | ⟨start, hStart⟩
    · exact hInId
    · rcases hRule with ⟨before, hBefore⟩
      rw [← hStart, ← List.append_assoc,
        List.append_left_inj] at hBefore
      have hNil : start = [] :=
        eq_nil_of_suffix_opening ⟨before, hBefore⟩
          ⟨id.text.toList, hStart⟩
      subst hNil
      exact ⟨[], hStart.symm⟩
  · rintro ⟨before, hText⟩
    unfold IsEnd
    rw [Text.occurs_iff]
    exact ⟨opening.toList ++ before, [], by
      simp [beginMarker, endMarker, ← hText]⟩

------------------------------------------------------------
-- End Markers That Are Begin Markers
------------------------------------------------------------

/- An end marker is never taken for a begin marker. -/
theorem markedId?_append_endMarker
    {lead : String}
    (hLead : '/' ∉ lead.toList) :
    markedId? (lead ++ endMarker) = none := by
  rw [markedId?_append hLead]
  decide

end Marker

------------------------------------------------------------
-- Begin Markers In A Section
------------------------------------------------------------

variable {lead : String}

/-
  Inside a section, the begin marker of another one is a fault
  that keeps the section open, or it closes the section.
-/
theorem Scanner.feed_beginMarker
    {s : Scanner}
    {current : OpenSection}
    (hOpen : s.open? = some current)
    (hLead : '/' ∉ lead.toList)
    (id : SectionId) :
    s.feed (lead ++ Marker.beginMarker id) =
      if id.EndsInRule then
        ({ line := s.line + 1
           closed := s.closed.push current.close
           open? := none }, .ok ())
      else
        ({ s with line := s.line + 1 },
          .error (.nested current.id (s.line + 1))) := by
  have hEnd :
      Marker.IsEnd (lead ++ Marker.beginMarker id) ↔
        id.EndsInRule :=
    (Marker.isEnd_append hLead _).trans
      (Marker.isEnd_beginMarker_iff id)
  by_cases hRule : id.EndsInRule
  · rw [if_pos hRule]
    exact feed_end hOpen (hEnd.mpr hRule)
  · have hBegin :
        Marker.IsBegin (lead ++ Marker.beginMarker id) := by
      unfold Marker.IsBegin
      rw [Marker.markedId?_append hLead,
        Marker.markedId?_beginMarker]
      rfl
    rw [if_neg hRule]
    exact feed_nested hOpen (fun h => hRule (hEnd.mp h)) hBegin

/-
  Behind spaces and tabs, begin markers give back their ids
  and end markers are no begin markers.  A begin marker is an
  end marker, and closes an open section, exactly when its id
  ends in the rule; every other begin marker is a fault there.
-/
theorem Marker.written_markers_told_apart
    (id : SectionId)
    (hLead : IsIndentation lead) :
    markedId? (lead ++ beginMarker id) = some id.text ∧
    (IsEnd (lead ++ beginMarker id) ↔ id.EndsInRule) ∧
    IsEnd (lead ++ endMarker) ∧
    markedId? (lead ++ endMarker) = none ∧
    ∀ (s : Scanner) (current : OpenSection),
      s.open? = some current →
      s.feed (lead ++ beginMarker id) =
        if id.EndsInRule then
          ({ line := s.line + 1
             closed := s.closed.push current.close
             open? := none }, .ok ())
        else
          ({ s with line := s.line + 1 },
            .error (.nested current.id (s.line + 1))) := by
  have hSlash := hLead.slash_not_mem
  refine ⟨?_, ?_, isEnd_append_endMarker lead,
    markedId?_append_endMarker hSlash, ?_⟩
  · rw [markedId?_append hSlash, markedId?_beginMarker]
  · rw [isEnd_append hSlash, isEnd_beginMarker_iff]
  · intro s current hOpen
    exact Scanner.feed_beginMarker hOpen hSlash id

/- An id that ends in the rule. -/
def SectionId.ruled : SectionId :=
  ⟨"x// -----------", by decide⟩

/- An id that does not. -/
def SectionId.plain : SectionId :=
  ⟨"method.body@42", by decide⟩

/-
  In the open section of the plain id, its own begin marker is
  a fault, and the begin marker of the ruled one closes it.
-/
theorem Marker.written_markers_told_apart_ruled :
    IsIndentation "  " ∧
    SectionId.ruled.EndsInRule ∧
    IsEnd ("  " ++ beginMarker SectionId.ruled) ∧
    (Scanner.mk 1 #[] (some ⟨SectionId.plain, 1, #[]⟩)).feed
        ("  " ++ beginMarker SectionId.ruled) =
      (⟨2, #[⟨SectionId.plain, []⟩], none⟩, .ok ()) ∧
    (Scanner.mk 1 #[] (some ⟨SectionId.plain, 1, #[]⟩)).feed
        ("  " ++ beginMarker SectionId.plain) =
      (⟨2, #[], some ⟨SectionId.plain, 1, #[]⟩⟩,
        .error (.nested SectionId.plain 2)) := by
  have hLead : IsIndentation "  " := by
    decide
  have hRuled : SectionId.ruled.EndsInRule := by
    decide
  have hPlain : ¬ SectionId.plain.EndsInRule := by
    decide
  rcases written_markers_told_apart SectionId.ruled hLead with
    ⟨_, hEnd, _, _, hCloses⟩
  rcases written_markers_told_apart SectionId.plain hLead with
    ⟨_, _, _, _, hFault⟩
  refine ⟨hLead, hRuled, hEnd.mpr hRuled, ?_, ?_⟩
  · rw [hCloses _ _ rfl, if_pos hRuled]
    rfl
  · rw [hFault _ _ rfl, if_neg hPlain]

end Palimpsest
