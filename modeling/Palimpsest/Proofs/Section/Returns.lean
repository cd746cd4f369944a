import Mathlib.Data.List.TakeWhile
import Palimpsest.Proofs.Section.Fault
import Palimpsest.Proofs.Text.Lines
import Palimpsest.Proofs.Text.Search

/-
  Scanning a text with other line ends.

  When a carriage return is put in front of every newline,
  every line but the last ends in one.  This changes neither
  which lines are markers nor the ids in them, so the scanner
  goes through the same states, with a carriage return behind
  each line of a section.  The last line has no newline behind
  it; what it adds to an open section is lost, because the
  section is not closed any more.

  Main declarations:
    * `Text.withReturns`
    * `Scanner.withReturns`
    * `Scanner.feed_withReturns`
    * `Scanner.feedAll_withReturns`
    * `scan_withReturns`
-/

namespace Palimpsest

------------------------------------------------------------
-- Other Line Ends
------------------------------------------------------------

namespace Text

/- The character in front of a newline in other texts. -/
def carriageReturn : Char :=
  '\r'

/- A line with a carriage return behind it. -/
def returned (line : String) : String :=
  line ++ String.singleton carriageReturn

/- The characters with a return in front of every newline. -/
def putReturns (chars : List Char) : List Char :=
  chars.flatMap (fun c =>
    if c = newline then [carriageReturn, newline] else [c])

/- A text with a carriage return in front of every newline. -/
def withReturns (text : String) : String :=
  String.ofList (putReturns text.toList)

/- Every part but the last ends in a carriage return. -/
theorem exists_splitOn_putReturns (chars : List Char) :
    ∃ front last,
      chars.splitOn newline = front ++ [last] ∧
        (putReturns chars).splitOn newline =
          front.map (· ++ [carriageReturn]) ++ [last] := by
  induction chars with
  | nil =>
      exact ⟨[], [], by simp, by simp [putReturns]⟩
  | cons c chars ih =>
      rcases ih with ⟨front, last, hSplit, hReturns⟩
      have hCons :
          putReturns (c :: chars) =
            (if c = newline then
              [carriageReturn, newline]
            else
              [c]) ++ putReturns chars :=
        rfl
      by_cases hc : c = newline
      · refine ⟨[] :: front, last, ?_, ?_⟩
        · rw [List.splitOn_cons_eq_if_modifyHead,
            if_pos (by simpa using hc), hSplit]
          rfl
        · have hReturn : newline ∉ [carriageReturn] := by
            decide
          rw [hCons, if_pos hc, List.cons_append,
            ← List.singleton_append,
            splitOn_append_of_not_mem hReturn,
            List.singleton_append,
            List.splitOn_cons_eq_if_modifyHead,
            if_pos (by simp), hReturns]
          rfl
      · have hLead : newline ∉ [c] := by
          simpa using Ne.symm hc
        have hFirst :
            (c :: chars).splitOn newline =
              (front ++ [last]).modifyHead ([c] ++ ·) := by
          rw [← List.singleton_append,
            splitOn_append_of_not_mem hLead, hSplit]
        rw [hCons, if_neg hc,
          splitOn_append_of_not_mem hLead, hReturns, hFirst]
        cases front with
        | nil =>
            exact ⟨[], [c] ++ last, rfl, rfl⟩
        | cons first front =>
            exact ⟨([c] ++ first) :: front, last, rfl, rfl⟩

/- Every line but the last ends in a carriage return. -/
theorem exists_lines_withReturns (text : String) :
    ∃ front last,
      lines text = front ++ [last] ∧
        lines (withReturns text) =
          front.map returned ++ [last] := by
  rcases exists_splitOn_putReturns text.toList with
    ⟨front, last, hSplit, hReturns⟩
  refine ⟨front.map String.ofList, String.ofList last, ?_, ?_⟩
  · unfold lines splitAt
    rw [hSplit, List.map_append]
    rfl
  · unfold lines splitAt withReturns
    rw [String.toList_ofList, hReturns, List.map_append,
      List.map_map, List.map_map]
    congr 1
    apply List.map_congr_left
    intro part _
    simp [returned, String.ofList_append]

end Text

------------------------------------------------------------
-- Markers In Front Of A Carriage Return
------------------------------------------------------------

namespace Marker

variable {c : Char}

/- No id at the start takes in what stands behind its line. -/
theorem leadingId?_concat
    (hc : c ∉ closing.toList)
    (text : List Char) :
    leadingId? (text ++ [c]) = leadingId? text := by
  have hClosing : closing.toList ≠ [] := by
    decide
  unfold leadingId?
  rw [List.takeWhile_append]
  split
  · rename_i hAll
    have hSame := (List.takeWhile_prefix _).eq_of_length hAll
    rw [hSame]
    by_cases hLine : c = Text.newline
    · simp [hLine]
    · rw [List.takeWhile_cons_of_pos (by simpa using hLine)]
      exact Text.beforeLast?_concat hClosing hc text
  · rfl

theorem idAtStart?_concat
    (hOpening : c ∉ opening.toList)
    (hClosing : c ∉ closing.toList)
    (text : List Char) :
    idAtStart? (text ++ [c]) = idAtStart? text := by
  unfold idAtStart?
  rw [Text.dropPrefix?_concat hOpening]
  cases Text.dropPrefix? opening.toList text with
  | none =>
      rfl
  | some rest =>
      exact leadingId?_concat hClosing rest

theorem leftmostId?_concat
    (hOpening : c ∉ opening.toList)
    (hClosing : c ∉ closing.toList)
    (text : List Char) :
    leftmostId? (text ++ [c]) = leftmostId? text := by
  have hStart := idAtStart?_concat hOpening hClosing
  induction text with
  | nil =>
      have hNone : idAtStart? [c] = none :=
        hStart []
      simp [leftmostId?, hNone]
  | cons d text ih =>
      rw [List.cons_append, leftmostId?, leftmostId?, ih,
        ← List.cons_append, hStart]

/- A carriage return behind a line leaves the id in it. -/
theorem markedId?_returned (line : String) :
    markedId? (Text.returned line) = markedId? line := by
  unfold markedId? Text.returned
  rw [String.toList_append, String.toList_singleton,
    leftmostId?_concat (by decide) (by decide)]

/- A carriage return makes and spoils no begin marker. -/
theorem isBegin_returned (line : String) :
    IsBegin (Text.returned line) ↔ IsBegin line := by
  unfold IsBegin
  rw [markedId?_returned]

/- A carriage return makes and spoils no end marker. -/
theorem isEnd_returned (line : String) :
    IsEnd (Text.returned line) ↔ IsEnd line := by
  unfold IsEnd Text.returned
  rw [String.toList_append, String.toList_singleton,
    Text.occurs_concat_iff (by decide) (by decide)]

end Marker

------------------------------------------------------------
-- Scanners Of Both Texts
------------------------------------------------------------

/- A section with a carriage return behind each line. -/
def Section.withReturns (s : Section) : Section :=
  { s with contents := s.contents.map Text.returned }

/- An open section with a carriage return behind each line. -/
def OpenSection.withReturns (s : OpenSection) : OpenSection :=
  { s with contents := s.contents.map Text.returned }

theorem OpenSection.close_withReturns (s : OpenSection) :
    s.withReturns.close = s.close.withReturns := by
  simp [withReturns, close, Section.withReturns]

namespace Scanner

/- The same state, with returns behind the lines of sections. -/
def withReturns (s : Scanner) : Scanner where
  line := s.line
  closed := s.closed.map Section.withReturns
  open? := s.open?.map OpenSection.withReturns

theorem start_withReturns : start.withReturns = start := by
  simp [withReturns, start]

/-
  A line with a carriage return does to the one state what the
  line does to the other.
-/
theorem feed_withReturns
    (s : Scanner)
    (line : String) :
    s.withReturns.feed (Text.returned line) =
      ((s.feed line).1.withReturns, (s.feed line).2) := by
  have hId := Marker.markedId?_returned line
  have hBegins := Marker.isBegin_returned line
  have hEnds := Marker.isEnd_returned line
  have hOpens :
      s.withReturns.open? =
        s.open?.map OpenSection.withReturns :=
    rfl
  have hReads := s.reads_feed line
  generalize s.feed line = next at hReads
  cases hReads with
  | plain hOpen hLine =>
      rw [hOpen] at hOpens
      rw [feed_plain hOpens (hBegins.not.mpr hLine)]
      rfl
  | opens hOpen hLine =>
      rw [hOpen] at hOpens
      rw [feed_begin hOpens (hId.trans hLine)]
      simp [withReturns, OpenSection.withReturns]
  | invalidId hOpen hLine hText =>
      rw [hOpen] at hOpens
      rw [feed_invalid hOpens (hId.trans hLine) hText]
      rfl
  | closes hOpen hLine =>
      rw [hOpen] at hOpens
      rw [feed_end hOpens (hEnds.mpr hLine)]
      simp [withReturns, OpenSection.close_withReturns]
  | nested hOpen hEnd hBegin =>
      rw [hOpen] at hOpens
      rw [feed_nested hOpens (hEnds.not.mpr hEnd)
        (hBegins.mpr hBegin)]
      rfl
  | inner hOpen hLine =>
      rw [hOpen] at hOpens
      rw [feed_content hOpens (hEnds.not.mpr hLine.1)
        (hBegins.not.mpr hLine.2)]
      simp [withReturns, OpenSection.withReturns]

/- Lines with carriage returns lead from state to state. -/
theorem feedAll_withReturns
    (s : Scanner)
    (lines : List String) :
    s.withReturns.feedAll (lines.map Text.returned) =
      (s.feedAll lines).map withReturns := by
  induction lines generalizing s with
  | nil =>
      rfl
  | cons line lines ih =>
      rw [List.map_cons, feedAll, feedAll, feed_withReturns]
      rcases s.feed line with ⟨next, _ | _⟩
      · rfl
      · exact ih next

------------------------------------------------------------
-- The Last Line
------------------------------------------------------------

/- The recovered sections have returns behind their lines. -/
theorem finish_withReturns (s : Scanner) :
    s.withReturns.finish =
      s.finish.map (List.map Section.withReturns) := by
  unfold finish withReturns
  cases s.open? with
  | none =>
      simp [Except.map]
  | some current =>
      rfl

/- What scanning comes to when the line is the last one. -/
def conclude
    (s : Scanner)
    (line : String) : Except ScanError (List Section) :=
  match s.feed line with
  | (next, .ok ()) => next.finish
  | (_, .error fault) => .error fault

/-
  A carriage return behind the last line has no effect: where
  it would be recovered, the section is not closed any more.
-/
theorem conclude_returned
    (s : Scanner)
    (line : String) :
    s.conclude (Text.returned line) = s.conclude line := by
  have hId := Marker.markedId?_returned line
  have hBegins := Marker.isBegin_returned line
  have hEnds := Marker.isEnd_returned line
  have hReads := s.reads_feed line
  unfold conclude
  generalize s.feed line = next at hReads
  cases hReads with
  | plain hOpen hLine =>
      rw [feed_plain hOpen (hBegins.not.mpr hLine)]
  | opens hOpen hLine =>
      rw [feed_begin hOpen (hId.trans hLine)]
  | invalidId hOpen hLine hText =>
      rw [feed_invalid hOpen (hId.trans hLine) hText]
  | closes hOpen hLine =>
      rw [feed_end hOpen (hEnds.mpr hLine)]
  | nested hOpen hEnd hBegin =>
      rw [feed_nested hOpen (hEnds.not.mpr hEnd)
        (hBegins.mpr hBegin)]
  | inner hOpen hLine =>
      rw [feed_content hOpen (hEnds.not.mpr hLine.1)
        (hBegins.not.mpr hLine.2)]
      rfl

/- The same last line ends both runs alike. -/
theorem conclude_withReturns
    (s : Scanner)
    (line : String) :
    s.withReturns.conclude line =
      (s.conclude line).map (List.map Section.withReturns) := by
  rw [← conclude_returned]
  unfold conclude
  rw [feed_withReturns]
  rcases s.feed line with ⟨next, _ | _⟩
  · rfl
  · exact finish_withReturns next

/- Scanning goes through the lines before the last, then it. -/
theorem scanLines_concat
    (front : List String)
    (last : String) :
    scanLines (front ++ [last]) =
      (start.feedAll front).bind
        (fun s => s.conclude last) := by
  unfold scanLines
  rw [feedAll_append]
  cases start.feedAll front with
  | error fault =>
      rfl
  | ok s =>
      dsimp only [Except.bind]
      unfold conclude
      rw [feedAll]
      rcases s.feed last with ⟨next, _ | _⟩ <;> rfl

end Scanner

/-
  A text with a carriage return in front of every newline has
  the same sections in the same order, with a carriage return
  behind each of their lines, or the same fault at the same
  line.
-/
theorem scan_withReturns (text : String) :
    scan (Text.withReturns text) =
      (scan text).map (List.map Section.withReturns) := by
  rcases Text.exists_lines_withReturns text with
    ⟨front, last, hLines, hReturns⟩
  have hRun := Scanner.start.feedAll_withReturns front
  rw [Scanner.start_withReturns] at hRun
  unfold scan
  rw [hLines, hReturns, Scanner.scanLines_concat,
    Scanner.scanLines_concat, hRun]
  cases Scanner.start.feedAll front with
  | error fault =>
      rfl
  | ok s =>
      exact s.conclude_withReturns last

/- The lines of a section get returns, the markers do not. -/
example :
    scan
        (Text.withReturns
          ("// ----------- << a >>\nx\n\n" ++
            "// ----------- >>\ny")) =
      .ok [⟨⟨"a", by decide⟩, ["x\r", "\r"]⟩] := by
  decide +kernel

/- A fault is at the same line. -/
example :
    scan
        (Text.withReturns
          ("x\n// ----------- << a >>\n" ++
            "// ----------- << b >>\n")) =
      .error (.nested ⟨"a", by decide⟩ 3) := by
  decide +kernel

end Palimpsest
