import Mathlib.Data.List.Induction
import Palimpsest.Proofs.Section.Blocks
import Palimpsest.Section.Log

/-
  Scanning keeps its log straight on every run.

  However many lines are at fault on the way, a log counts all
  of them, an open section is the last of the list, and it
  holds exactly the lines without a fault since its begin
  marker.  So the look-up of the last section never comes out
  empty: no line of an open section is lost, and every fault
  in it names its id.  The scanner that holds the open section
  apart has the same log.

  Main declarations:
    * `ScanLog.Reads`
    * `ScanLog.HasOpened`
    * `ScanLog.IsSound`
    * `Scanner.feed_log`
    * `ScanLog.sound_on_every_run`
-/

namespace Palimpsest

------------------------------------------------------------
-- What One Line Does
------------------------------------------------------------

namespace ScanLog

/- Everything that reading a line can come to. -/
inductive Reads
    (l : ScanLog)
    (line : String) : ScanLog × Except Fault Unit → Prop
| plain
    (hOpen : l.openedAt? = none)
    (hLine : ¬ Marker.IsBegin line) :
    Reads l line (l.count, .ok ())
| opens
    {id : SectionId}
    (hOpen : l.openedAt? = none)
    (hLine : Marker.markedId? line = some id.text) :
    Reads l line
      (⟨l.line + 1, some (l.line + 1),
        l.sections ++ [Section.empty id]⟩, .ok ())
| invalidId
    {text : String}
    (hOpen : l.openedAt? = none)
    (hLine : Marker.markedId? line = some text)
    (hText : ¬ SectionId.Valid text) :
    Reads l line
      (l.count, .error (.invalidId (l.line + 1) ⟨text⟩))
| closes
    {openedAt : Nat}
    (hOpen : l.openedAt? = some openedAt)
    (hLine : Marker.IsEnd line) :
    Reads l line ({ l.count with openedAt? := none }, .ok ())
| nested
    {openedAt : Nat}
    (hOpen : l.openedAt? = some openedAt)
    (hEnd : ¬ Marker.IsEnd line)
    (hBegin : Marker.IsBegin line) :
    Reads l line
      (l.count, .error (.nested l.openId (l.line + 1)))
| inner
    {openedAt : Nat}
    (hOpen : l.openedAt? = some openedAt)
    (hLine : Marker.IsInner line) :
    Reads l line (l.count.preserve line, .ok ())

theorem reads_feed
    (l : ScanLog)
    (line : String) :
    Reads l line (l.feed line) := by
  unfold feed
  cases hOpen : l.openedAt? with
  | none =>
      cases hLine : Marker.markedId? line with
      | none =>
          simp only [feedPlain, hLine]
          exact .plain hOpen (by simp [Marker.IsBegin, hLine])
      | some text =>
          by_cases hText : SectionId.Valid text
          · simp only [feedPlain, hLine, SectionId.ofString,
              dif_pos hText]
            have hId :
                Marker.markedId? line =
                  some (SectionId.mk text hText).text :=
              hLine
            exact .opens hOpen hId
          · simp only [feedPlain, hLine, SectionId.ofString,
              dif_neg hText]
            exact .invalidId hOpen hLine hText
  | some openedAt =>
      by_cases hEnd : Marker.IsEnd line
      · simp only [feedOpen, if_pos hEnd]
        exact .closes hOpen hEnd
      · by_cases hBegin : Marker.IsBegin line
        · simp only [feedOpen, if_neg hEnd, if_pos hBegin]
          exact .nested hOpen hEnd hBegin
        · simp only [feedOpen, if_neg hEnd, if_neg hBegin]
          exact .inner hOpen ⟨hEnd, hBegin⟩

/- A line is added to the section that stands last. -/
theorem preserve_of_concat
    {l : ScanLog}
    {done : List Section}
    {s : Section}
    (hLast : l.sections = done ++ [s])
    (line : String) :
    l.preserve line =
      { l with sections := done ++ [s.append line] } := by
  simp [preserve, hLast]

/- A line at fault is counted and changes nothing else. -/
theorem fst_feed_of_error
    {l : ScanLog}
    {line : String}
    {fault : Fault}
    (hFault : (l.feed line).2 = .error fault) :
    (l.feed line).1 = l.count := by
  have hReads := l.reads_feed line
  generalize l.feed line = next at hReads hFault
  cases hReads with
  | plain | opens | closes | inner =>
      cases hFault
  | invalidId | nested =>
      rfl

------------------------------------------------------------
-- Runs
------------------------------------------------------------

theorem feedEach_append
    (l : ScanLog)
    (lines rest : List String) :
    l.feedEach (lines ++ rest) =
      (l.feedEach lines).feedEach rest := by
  induction lines generalizing l with
  | nil =>
      rfl
  | cons line lines ih =>
      exact ih (l.feed line).1

theorem accepted_append
    (l : ScanLog)
    (lines rest : List String) :
    l.accepted (lines ++ rest) =
      l.accepted lines ++
        (l.feedEach lines).accepted rest := by
  induction lines generalizing l with
  | nil =>
      rfl
  | cons line lines ih =>
      rw [List.cons_append, accepted, accepted, feedEach]
      rcases l.feed line with ⟨next, _ | _⟩
      · exact ih next
      · exact congrArg (line :: ·) (ih next)

/- A single line is accepted unless it is at fault. -/
theorem accepted_singleton
    (l : ScanLog)
    (line : String) :
    l.accepted [line] =
      match (l.feed line).2 with
      | .ok () => [line]
      | .error _ => [] := by
  rw [accepted]
  rcases l.feed line with ⟨next, _ | _⟩ <;> rfl

------------------------------------------------------------
-- Logs Of Runs
------------------------------------------------------------

/-
  The line with the number is a begin marker outside every
  section.  It has opened the last of the sections, and that
  section holds the lines accepted since.
-/
inductive HasOpened
    (lines : List String)
    (openedAt : Nat)
    (sections : List Section) : Prop
| mk
    {front back : List String}
    {first : String}
    {id : SectionId}
    (hLines : lines = front ++ first :: back)
    (hNumber : openedAt = front.length + 1)
    (hPlain : (start.feedEach front).openedAt? = none)
    (hFirst : Marker.markedId? first = some id.text)
    (hSections :
      sections =
        (start.feedEach front).sections ++
          [⟨id,
            (start.feedEach (front ++ [first])).accepted
              back⟩])

/- What holds of the log of lines. -/
structure IsSound
    (lines : List String)
    (l : ScanLog) : Prop where
  line : l.line = lines.length
  opened : ∀ openedAt, l.openedAt? = some openedAt →
    HasOpened lines openedAt l.sections
  inner : ∀ s ∈ l.sections, ∀ line ∈ s.contents,
    Marker.IsInner line

/- The lines of an open section go on with the accepted ones. -/
theorem HasOpened.concat
    {lines : List String}
    {openedAt : Nat}
    {sections : List Section}
    (hOpened : HasOpened lines openedAt sections)
    (line : String) :
    ∃ done s,
      sections = done ++ [s] ∧
        HasOpened (lines ++ [line]) openedAt
          (done ++ [⟨s.id, s.contents ++
            (start.feedEach lines).accepted [line]⟩]) := by
  rcases hOpened with
    @⟨front, back, first, id, hLines, hNumber, hPlain, hFirst,
      hSections⟩
  refine ⟨_, _, hSections, ?_⟩
  have hRun :
      start.feedEach lines =
        (start.feedEach (front ++ [first])).feedEach back := by
    rw [← feedEach_append, List.append_assoc,
      List.singleton_append, hLines]
  have hMore :
      lines ++ [line] = front ++ first :: (back ++ [line]) := by
    rw [hLines, List.append_assoc, List.cons_append]
  refine .mk hMore hNumber hPlain hFirst ?_
  rw [accepted_append, hRun]

/- One more line leaves a sound log sound. -/
theorem IsSound.concat
    {lines : List String}
    (hSound : IsSound lines (start.feedEach lines))
    (line : String) :
    IsSound (lines ++ [line])
      (start.feedEach (lines ++ [line])) := by
  have hNext :
      start.feedEach (lines ++ [line]) =
        ((start.feedEach lines).feed line).1 :=
    feedEach_append start lines [line]
  have hAccepted :=
    accepted_singleton (start.feedEach lines) line
  have hReads := (start.feedEach lines).reads_feed line
  have hCount :
      (start.feedEach lines).line + 1 =
        (lines ++ [line]).length := by
    rw [hSound.line, List.length_append,
      List.length_singleton]
  rw [hNext]
  generalize (start.feedEach lines).feed line = next
    at hReads hAccepted
  cases hReads with
  | plain hOpen hLine =>
      refine ⟨hCount, fun openedAt hNow => ?_, hSound.inner⟩
      exact absurd (hOpen.symm.trans hNow) nofun
  | @opens id hOpen hLine =>
      refine ⟨hCount, fun openedAt hNow => ?_, ?_⟩
      · -- The new section has no lines yet.
        cases hNow
        have hNumber :
            (start.feedEach lines).line + 1 =
              lines.length + 1 :=
          congrArg (· + 1) hSound.line
        exact .mk rfl hNumber hOpen hLine rfl
      · rw [List.forall_mem_append,
          List.forall_mem_singleton]
        exact ⟨hSound.inner, nofun⟩
  | invalidId hOpen hLine hText =>
      refine ⟨hCount, fun openedAt hNow => ?_, hSound.inner⟩
      exact absurd (hOpen.symm.trans hNow) nofun
  | closes hOpen hLine =>
      exact ⟨hCount, nofun, hSound.inner⟩
  | nested hOpen hEnd hBegin =>
      refine ⟨hCount, fun openedAt hNow => ?_, hSound.inner⟩
      rcases (hSound.opened openedAt hNow).concat line with
        ⟨done, s, hSections, hOpened⟩
      rw [hAccepted, List.append_nil, ← hSections] at hOpened
      exact hOpened
  | inner hOpen hLine =>
      rcases (hSound.opened _ hOpen).concat line with
        ⟨done, s, hSections, hOpened⟩
      rw [hAccepted] at hOpened
      rw [preserve_of_concat
        (l := (start.feedEach lines).count) hSections]
      refine ⟨hCount, fun openedAt hNow => ?_, ?_⟩
      · cases hOpen.symm.trans hNow
        exact hOpened
      · have hInner := hSound.inner
        rw [hSections, List.forall_mem_append,
          List.forall_mem_singleton] at hInner
        rw [List.forall_mem_append, List.forall_mem_singleton]
        refine ⟨hInner.1, ?_⟩
        exact List.forall_mem_append.mpr
          ⟨hInner.2, List.forall_mem_singleton.mpr hLine⟩

theorem isSound_feedEach (lines : List String) :
    IsSound lines (start.feedEach lines) := by
  induction lines using List.reverseRecOn with
  | nil =>
      exact ⟨rfl, nofun, nofun⟩
  | append_singleton lines line ih =>
      exact ih.concat line

/- While a section is open, the last section is found. -/
theorem IsSound.exists_concat
    {lines : List String}
    {l : ScanLog}
    (hSound : IsSound lines l)
    {openedAt : Nat}
    (hOpen : l.openedAt? = some openedAt) :
    ∃ done s, l.sections = done ++ [s] ∧
      l.openId = s.id.text := by
  rcases hSound.opened openedAt hOpen with
    @⟨front, back, first, id, _, _, _, _, hSections⟩
  exact ⟨_, _, hSections, by simp [openId, hSections]⟩

end ScanLog

------------------------------------------------------------
-- Faults Name The Open Section
------------------------------------------------------------

/- An id is never the empty text. -/
theorem SectionId.text_ne_empty (id : SectionId) :
    id.text ≠ "" := by
  intro hText
  have hValid := id.valid
  rw [hText] at hValid
  exact absurd hValid (by decide)

namespace ScanLog

/-
  The id of an open section that a fault names is the one of
  the last section, and it is not empty.
-/
def NamesLast
    (l : ScanLog)
    (fault : Fault) : Prop :=
  ∀ openId, fault.openId? = some openId →
    openId ≠ "" ∧
      ∃ s, l.sections.getLast? = some s ∧ s.id.text = openId

/- The id that a log names while a section is open. -/
theorem IsSound.openId
    {lines : List String}
    {l : ScanLog}
    (hSound : IsSound lines l)
    {openedAt : Nat}
    (hOpen : l.openedAt? = some openedAt) :
    l.openId ≠ "" ∧
      ∃ s, l.sections.getLast? = some s ∧
        s.id.text = l.openId := by
  rcases hSound.exists_concat hOpen with
    ⟨done, s, hSections, hId⟩
  rw [hId]
  exact ⟨s.id.text_ne_empty, s, by simp [hSections], rfl⟩

theorem IsSound.namesLast_of_feed
    {lines : List String}
    {l : ScanLog}
    (hSound : IsSound lines l)
    {line : String}
    {fault : Fault}
    (hFault : (l.feed line).2 = .error fault) :
    l.NamesLast fault := by
  have hReads := l.reads_feed line
  generalize l.feed line = next at hReads hFault
  cases hReads with
  | plain | opens | closes | inner =>
      cases hFault
  | invalidId =>
      cases hFault
      exact nofun
  | nested hOpen =>
      cases hFault
      intro openId hId
      cases hId
      exact hSound.openId hOpen

theorem IsSound.namesLast_of_finish
    {lines : List String}
    {l : ScanLog}
    (hSound : IsSound lines l)
    {fault : Fault}
    (hFault : l.finish = .error fault) :
    l.NamesLast fault := by
  unfold finish at hFault
  cases hOpen : l.openedAt? with
  | none =>
      rw [hOpen] at hFault
      cases hFault
  | some openedAt =>
      rw [hOpen] at hFault
      cases hFault
      intro openId hId
      cases hId
      exact hSound.openId hOpen

/- No line of an open section is lost. -/
theorem IsSound.feed_inner
    {lines : List String}
    {l : ScanLog}
    (hSound : IsSound lines l)
    {openedAt : Nat}
    (hOpen : l.openedAt? = some openedAt)
    {line : String}
    (hLine : Marker.IsInner line) :
    ∃ done s,
      l.sections = done ++ [s] ∧
        l.feed line =
          (⟨l.line + 1, some openedAt,
            done ++ [s.append line]⟩, .ok ()) := by
  rcases hSound.exists_concat hOpen with
    ⟨done, s, hSections, _⟩
  refine ⟨done, s, hSections, ?_⟩
  have hPreserve :=
    preserve_of_concat (l := l.count) hSections line
  simp only [feed, feedOpen, hOpen, if_neg hLine.1,
    if_neg hLine.2, hPreserve]
  simp only [count, hOpen]

end ScanLog

------------------------------------------------------------
-- Logs Of Scanners
------------------------------------------------------------

namespace Scanner

/- A scanner and its log read a line alike. -/
theorem feed_log
    (s : Scanner)
    (line : String) :
    s.log.feed line =
      ((s.feed line).1.log,
        (s.feed line).2.mapError ScanError.logged) := by
  have hReads := s.reads_feed line
  generalize s.feed line = next at hReads
  rcases s with ⟨number, closed, open?⟩
  cases hReads with
  | plain hOpen hLine =>
      have hId : Marker.markedId? line = none := by
        simpa [Marker.IsBegin] using hLine
      cases hOpen
      simp [log, ScanLog.feed, ScanLog.feedPlain,
        ScanLog.count, hId, sections, Except.mapError]
  | opens hOpen hId =>
      cases hOpen
      simp [log, ScanLog.feed, ScanLog.feedPlain,
        ScanLog.count, hId, sections, Except.mapError,
        OpenSection.close, Section.empty]
  | invalidId hOpen hId hText =>
      cases hOpen
      simp [log, ScanLog.feed, ScanLog.feedPlain,
        ScanLog.count, hId, sections, Except.mapError,
        SectionId.ofString, hText, ScanError.logged]
  | closes hOpen hEnd =>
      cases hOpen
      simp [log, ScanLog.feed, ScanLog.feedOpen,
        ScanLog.count, hEnd, sections, Except.mapError]
  | nested hOpen hEnd hBegin =>
      cases hOpen
      simp [log, ScanLog.feed, ScanLog.feedOpen,
        ScanLog.count, ScanLog.openId, hEnd, hBegin,
        sections, Except.mapError, ScanError.logged,
        OpenSection.close]
  | inner hOpen hLine =>
      cases hOpen
      simp [log, ScanLog.feed, ScanLog.feedOpen,
        ScanLog.count, ScanLog.preserve, hLine.1, hLine.2,
        sections, Except.mapError, OpenSection.close,
        Section.append]

/- A scanner and its log end alike. -/
theorem finish_log (s : Scanner) :
    s.log.finish = s.finish.mapError ScanError.logged := by
  rcases s with ⟨number, closed, _ | current⟩
  · simp [log, finish, ScanLog.finish, sections,
      Except.mapError]
  · simp [log, finish, ScanLog.finish, ScanLog.openId,
      sections, Except.mapError, ScanError.logged,
      OpenSection.close]

/- A scanner and its log read many lines alike. -/
theorem feedEach_log
    (s : Scanner)
    (lines : List String) :
    s.log.feedEach lines = (s.feedEach lines).log := by
  induction lines generalizing s with
  | nil =>
      rfl
  | cons line lines ih =>
      rw [ScanLog.feedEach, feed_log]
      exact ih (s.feed line).1

end Scanner

------------------------------------------------------------
-- Every Run
------------------------------------------------------------

/-
  After any lines, faults among them or not: all lines are
  counted; a further line at fault is counted and changes
  nothing else; an open section was opened by the begin marker
  on the line with its number, stands last, and holds exactly
  the lines without a fault since; no line of a section is a
  marker; a line that is none goes to the open section; and a
  fault names no other section than that one.  The scanner has
  this log and reports the same faults.
-/
theorem ScanLog.sound_on_every_run (lines : List String) :
    let l := start.feedEach lines
    let s := Scanner.start.feedEach lines
    l.line = lines.length ∧
    (∀ line fault, (l.feed line).2 = .error fault →
      (l.feed line).1 = l.count ∧ l.NamesLast fault) ∧
    (∀ fault, l.finish = .error fault →
      l.NamesLast fault) ∧
    (∀ openedAt, l.openedAt? = some openedAt →
      HasOpened lines openedAt l.sections ∧
      ∀ line, Marker.IsInner line →
        ∃ done last,
          l.sections = done ++ [last] ∧
          l.feed line =
            (⟨l.line + 1, some openedAt,
              done ++ [last.append line]⟩, .ok ())) ∧
    (∀ x ∈ l.sections, ∀ line ∈ x.contents,
      Marker.IsInner line) ∧
    s.log = l ∧
    s.finish.mapError ScanError.logged = l.finish ∧
    ∀ line,
      (s.feed line).1.log = (l.feed line).1 ∧
      (s.feed line).2.mapError ScanError.logged =
        (l.feed line).2 := by
  intro l s
  have hSound : IsSound lines l := isSound_feedEach lines
  have hLog : s.log = l :=
    (Scanner.feedEach_log Scanner.start lines).symm
  refine ⟨hSound.line, ?_, ?_, ?_, hSound.inner, hLog, ?_, ?_⟩
  · intro line fault hFault
    exact ⟨fst_feed_of_error hFault,
      hSound.namesLast_of_feed hFault⟩
  · exact fun fault => hSound.namesLast_of_finish
  · intro openedAt hOpen
    exact ⟨hSound.opened openedAt hOpen,
      fun line => hSound.feed_inner hOpen⟩
  · rw [← Scanner.finish_log, hLog]
  · intro line
    rw [← hLog, Scanner.feed_log]
    exact ⟨rfl, rfl⟩

/- Lines with a begin marker inside an open section. -/
def ScanLog.nestedLines : List String :=
  ["class A \x7b",
    "  // ----------- << total@9 >>",
    "keep",
    "  // ----------- << other >>",
    "",
    "more"]

/-
  The section goes on behind the line at fault, and what is
  at fault there later names it again.
-/
theorem ScanLog.sound_on_every_run_nested :
    let l := start.feedEach nestedLines
    let s : Section :=
      ⟨⟨"total@9", by decide⟩, ["keep", "", "more"]⟩
    l = ⟨6, some 2, [s]⟩ ∧
    HasOpened nestedLines 2 [s] ∧
    l.feed "// ----------- << last >>" =
      (⟨7, some 2, [s]⟩,
        .error (.nested "total@9" 7)) ∧
    l.NamesLast (.nested "total@9" 7) ∧
    l.finish = .error (.unterminated "total@9" 2) ∧
    l.NamesLast (.unterminated "total@9" 2) ∧
    l.feed "    end" =
      (⟨7, some 2, [s.append "    end"]⟩, .ok ()) := by
  intro l s
  have hRun : l = ⟨6, some 2, [s]⟩ := by
    decide +kernel
  have hFeed :
      l.feed "// ----------- << last >>" =
        (⟨7, some 2, [s]⟩,
          .error (.nested "total@9" 7)) := by
    decide +kernel
  have hFinish :
      l.finish =
        .error (.unterminated "total@9" 2) := by
    decide +kernel
  have hInner : Marker.IsInner "    end" := by
    decide +kernel
  rcases sound_on_every_run nestedLines with
    ⟨hCount, hFaults, hEnd, hOpened, _⟩
  have hOpen : l.openedAt? = some 2 :=
    congrArg openedAt? hRun
  have hSections : l.sections = [s] :=
    congrArg sections hRun
  rcases hOpened 2 hOpen with ⟨hOpener, hLines⟩
  refine ⟨hRun, hSections ▸ hOpener, hFeed,
    (hFaults _ _ (congrArg Prod.snd hFeed)).2, hFinish,
    hEnd _ hFinish, ?_⟩
  rcases hLines "    end" hInner with
    ⟨done, last, hLast, hNext⟩
  rcases List.append_eq_singleton_iff.mp
      (hLast.symm.trans hSections) with
    ⟨rfl, hSame⟩ | ⟨_, hNone⟩
  · cases hSame
    rw [hNext, hCount]
    rfl
  · cases hNone

end Palimpsest
