import Palimpsest.Section.Scan

/-
  The grammar of marked texts.

  A marked text is made of plain lines and of blocks.  A block
  starts with a begin marker and ends with an end marker; the
  lines between them are markers of neither kind.  Scanning
  accepts exactly these texts, and the sections it recovers
  are the blocks in their order.

  Main declarations:
    * `Marker.IsInner`
    * `Blocks`
    * `Blocks.append`
    * `Scanner.Reads`
    * `scanLines_eq_ok_iff`
    * `scan_eq_ok_iff`
-/

namespace Palimpsest

------------------------------------------------------------
-- The Grammar
------------------------------------------------------------

/- A line that may stand inside a section. -/
def Marker.IsInner (line : String) : Prop :=
  ¬ Marker.IsEnd line ∧ ¬ Marker.IsBegin line

instance (line : String) :
    Decidable (Marker.IsInner line) := by
  unfold Marker.IsInner
  infer_instance

/-
  The lines consist of plain lines and of one block for each
  of the sections, in order.
-/
inductive Blocks : List String → List Section → Prop
| nil : Blocks [] []
| plain
    {line : String}
    {lines : List String}
    {sections : List Section}
    (hLine : ¬ Marker.IsBegin line)
    (hRest : Blocks lines sections) :
    Blocks (line :: lines) sections
| block
    {first last : String}
    {s : Section}
    {lines : List String}
    {sections : List Section}
    (hFirst : Marker.markedId? first = some s.id.text)
    (hInner : ∀ line ∈ s.contents, Marker.IsInner line)
    (hLast : Marker.IsEnd last)
    (hRest : Blocks lines sections) :
    Blocks (first :: (s.contents ++ last :: lines))
      (s :: sections)

namespace Blocks

/- Marked texts may follow each other. -/
theorem append
    {lines others : List String}
    {sections more : List Section}
    (hLines : Blocks lines sections)
    (hOthers : Blocks others more) :
    Blocks (lines ++ others) (sections ++ more) := by
  induction hLines with
  | nil =>
      exact hOthers
  | plain hLine _ ih =>
      exact .plain hLine ih
  | block hFirst hInner hLast _ ih =>
      simp only [List.cons_append, List.append_assoc]
      exact .block hFirst hInner hLast ih

/- Plain lines alone hold no section. -/
theorem of_plain
    {lines : List String}
    (hLines : ∀ line ∈ lines, ¬ Marker.IsBegin line) :
    Blocks lines [] := by
  induction lines with
  | nil =>
      exact .nil
  | cons line lines ih =>
      rw [List.forall_mem_cons] at hLines
      exact .plain hLines.1 (ih hLines.2)

/- One section between its markers. -/
theorem of_section
    {first last : String}
    {s : Section}
    (hFirst : Marker.markedId? first = some s.id.text)
    (hInner : ∀ line ∈ s.contents, Marker.IsInner line)
    (hLast : Marker.IsEnd last) :
    Blocks (first :: (s.contents ++ [last])) [s] :=
  .block hFirst hInner hLast .nil

/- The lines of a section are lines of the text. -/
theorem contents_subset
    {lines : List String}
    {sections : List Section}
    (hBlocks : Blocks lines sections)
    {s : Section}
    (hs : s ∈ sections) :
    ∀ line ∈ s.contents,
      line ∈ lines ∧ Marker.IsInner line := by
  induction hBlocks with
  | nil =>
      simp at hs
  | plain _ _ ih =>
      intro line hLine
      rcases ih hs line hLine with ⟨hMem, hInner⟩
      exact ⟨List.mem_cons_of_mem _ hMem, hInner⟩
  | block _ hInner _ _ ih =>
      intro line hLine
      rcases List.mem_cons.mp hs with hHead | hTail
      · subst hHead
        exact ⟨by simp [hLine], hInner line hLine⟩
      · rcases ih hTail line hLine with ⟨hMem, hIn⟩
        exact ⟨by simp [hMem], hIn⟩

end Blocks

------------------------------------------------------------
-- What One Line Does To A Scanner
------------------------------------------------------------

namespace Scanner

/- Everything that reading a line can come to. -/
inductive Reads
    (s : Scanner)
    (line : String) : Scanner × Except ScanError Unit → Prop
| plain
    (hOpen : s.open? = none)
    (hLine : ¬ Marker.IsBegin line) :
    Reads s line ({ s with line := s.line + 1 }, .ok ())
| opens
    {id : SectionId}
    (hOpen : s.open? = none)
    (hLine : Marker.markedId? line = some id.text) :
    Reads s line
      ({ s with
          line := s.line + 1
          open? := some ⟨id, s.line + 1, #[]⟩ }, .ok ())
| invalidId
    {text : String}
    (hOpen : s.open? = none)
    (hLine : Marker.markedId? line = some text)
    (hText : ¬ SectionId.Valid text) :
    Reads s line
      ({ s with line := s.line + 1 },
        .error (.invalidId (s.line + 1) ⟨text⟩))
| closes
    {current : OpenSection}
    (hOpen : s.open? = some current)
    (hLine : Marker.IsEnd line) :
    Reads s line
      (⟨s.line + 1, s.closed.push current.close, none⟩, .ok ())
| nested
    {current : OpenSection}
    (hOpen : s.open? = some current)
    (hEnd : ¬ Marker.IsEnd line)
    (hBegin : Marker.IsBegin line) :
    Reads s line
      ({ s with line := s.line + 1 },
        .error (.nested current.id (s.line + 1)))
| inner
    {current : OpenSection}
    (hOpen : s.open? = some current)
    (hLine : Marker.IsInner line) :
    Reads s line
      ({ s with
          line := s.line + 1
          open? := some { current with
            contents := current.contents.push line } },
        .ok ())

theorem reads_feed
    (s : Scanner)
    (line : String) :
    s.Reads line (s.feed line) := by
  cases hOpen : s.open? with
  | none =>
      cases hLine : Marker.markedId? line with
      | none =>
          have hPlain : ¬ Marker.IsBegin line := by
            simp [Marker.IsBegin, hLine]
          rw [feed_plain hOpen hPlain]
          exact .plain hOpen hPlain
      | some text =>
          by_cases hText : SectionId.Valid text
          · have hId :
                Marker.markedId? line =
                  some (SectionId.mk text hText).text :=
              hLine
            rw [feed_begin hOpen hId]
            exact .opens hOpen hId
          · rw [feed_invalid hOpen hLine hText]
            exact .invalidId hOpen hLine hText
  | some current =>
      by_cases hEnd : Marker.IsEnd line
      · rw [feed_end hOpen hEnd]
        exact .closes hOpen hEnd
      · by_cases hBegin : Marker.IsBegin line
        · rw [feed_nested hOpen hEnd hBegin]
          exact .nested hOpen hEnd hBegin
        · rw [feed_content hOpen hEnd hBegin]
          exact .inner hOpen ⟨hEnd, hBegin⟩

------------------------------------------------------------
-- Scanning Accepts The Grammar
------------------------------------------------------------

/- The lines of an open section are collected. -/
theorem feedAll_contents
    {contents : List String}
    (hInner : ∀ line ∈ contents, Marker.IsInner line)
    (rest : List String)
    {s : Scanner}
    {current : OpenSection}
    (hOpen : s.open? = some current) :
    s.feedAll (contents ++ rest) =
      { s with
        line := s.line + contents.length
        open? := some { current with
          contents :=
            current.contents ++ contents.toArray } :
          Scanner }.feedAll rest := by
  induction contents generalizing s current with
  | nil =>
      cases s
      cases hOpen
      simp
  | cons line contents ih =>
      rw [List.forall_mem_cons] at hInner
      rw [List.cons_append, feedAll_cons_of_ok
        (feed_content hOpen hInner.1.1 hInner.1.2)]
      rw [ih hInner.2 rfl]
      simp [Nat.add_comm, Nat.add_left_comm]

/-
  Outside a section, a marked text is read to its end and adds
  its blocks to the sections that are closed.
-/
theorem feedAll_of_blocks
    {lines : List String}
    {sections : List Section}
    (hBlocks : Blocks lines sections)
    {s : Scanner}
    (hOpen : s.open? = none) :
    s.feedAll lines =
      .ok ⟨s.line + lines.length,
        s.closed ++ sections.toArray, none⟩ := by
  induction hBlocks generalizing s with
  | nil =>
      cases s
      cases hOpen
      simp [feedAll]
  | plain hLine _ ih =>
      rw [feedAll_cons_of_ok (feed_plain hOpen hLine)]
      rw [ih (s := { s with line := s.line + 1 }) hOpen]
      simp [Nat.add_comm, Nat.add_left_comm]
  | block hFirst hInner hLast _ ih =>
      rw [feedAll_cons_of_ok (feed_begin hOpen hFirst)]
      rw [feedAll_contents hInner _ rfl]
      rw [feedAll_cons_of_ok (feed_end rfl hLast)]
      rw [ih rfl]
      simp [OpenSection.close]
      omega

------------------------------------------------------------
-- Scanning Accepts Nothing Else
------------------------------------------------------------

/-
  What is read from inside a section up to a point outside is
  the rest of that section and then a marked text.
-/
def ClosesInto
    (current : OpenSection)
    (lines : List String)
    (added : List Section) : Prop :=
  ∃ contents last rest sections,
    lines = contents ++ last :: rest ∧
      (∀ line ∈ contents, Marker.IsInner line) ∧
        Marker.IsEnd last ∧
          Blocks rest sections ∧
            added =
              ⟨current.id,
                current.contents.toList ++ contents⟩ ::
                sections

/- A run that ends outside every section read a marked text. -/
theorem blocks_of_feedAll
    {lines : List String}
    {s t : Scanner}
    (hRun : s.feedAll lines = .ok t)
    (hEnd : t.open? = none) :
    ∃ added,
      t.closed.toList = s.closed.toList ++ added ∧
        match s.open? with
        | none => Blocks lines added
        | some current => ClosesInto current lines added := by
  induction lines generalizing s with
  | nil =>
      cases hRun
      exact ⟨[], by simp, by rw [hEnd]; exact .nil⟩
  | cons line lines ih =>
      have hReads := s.reads_feed line
      generalize hFeed : s.feed line = next at hReads
      cases hReads with
      | plain hOpen hPlain =>
          rw [feedAll_cons_of_ok hFeed] at hRun
          rcases ih hRun with ⟨added, hClosed, hAdded⟩
          simp only [hOpen] at hClosed hAdded ⊢
          exact ⟨added, hClosed, .plain hPlain hAdded⟩
      | opens hOpen hId =>
          rw [feedAll_cons_of_ok hFeed] at hRun
          rcases ih hRun with ⟨added, hClosed, hAdded⟩
          rcases hAdded with
            ⟨contents, last, rest, sections, hLines,
              hInner, hLast, hRest, hEq⟩
          simp only [hOpen]
          refine ⟨added, hClosed, ?_⟩
          rw [hEq, hLines]
          simp only [List.nil_append]
          exact .block (s := ⟨_, contents⟩)
            hId hInner hLast hRest
      | invalidId hOpen hId hText =>
          rw [feedAll_cons_of_error hFeed] at hRun
          cases hRun
      | @closes current hOpen hLast =>
          rw [feedAll_cons_of_ok hFeed] at hRun
          rcases ih hRun with ⟨added, hClosed, hAdded⟩
          simp only [hOpen]
          refine ⟨current.close :: added, ?_, ?_⟩
          · simpa using hClosed
          · exact ⟨[], line, lines, added, rfl, by simp,
              hLast, hAdded, by simp [OpenSection.close]⟩
      | nested hOpen hLast hBegin =>
          rw [feedAll_cons_of_error hFeed] at hRun
          cases hRun
      | inner hOpen hLine =>
          rw [feedAll_cons_of_ok hFeed] at hRun
          rcases ih hRun with ⟨added, hClosed, hAdded⟩
          rcases hAdded with
            ⟨contents, last, rest, sections, hLines,
              hInner, hEndLine, hRest, hEq⟩
          simp only [hOpen]
          refine ⟨added, hClosed, ?_⟩
          refine ⟨line :: contents, last, rest, sections,
            by rw [hLines]; rfl, ?_, hEndLine, hRest, ?_⟩
          · rw [List.forall_mem_cons]
            exact ⟨hLine, hInner⟩
          · rw [hEq]
            simp

end Scanner

/-
  Scanning succeeds exactly on marked texts and recovers their
  blocks in order.
-/
theorem scanLines_eq_ok_iff
    {lines : List String}
    {sections : List Section} :
    scanLines lines = .ok sections ↔
      Blocks lines sections := by
  constructor
  · intro hScan
    unfold scanLines at hScan
    cases hRun : Scanner.start.feedAll lines with
    | error fault =>
        rw [hRun] at hScan
        cases hScan
    | ok t =>
        rw [hRun] at hScan
        unfold Scanner.finish at hScan
        cases hOpen : t.open? with
        | some current =>
            simp [hOpen] at hScan
        | none =>
            simp only [hOpen, Except.ok.injEq] at hScan
            rcases Scanner.blocks_of_feedAll hRun hOpen with
              ⟨added, hClosed, hAdded⟩
            have hEq : sections = added := by
              rw [← hScan, hClosed]
              rfl
            subst hEq
            exact hAdded
  · intro hBlocks
    unfold scanLines
    rw [Scanner.feedAll_of_blocks hBlocks rfl]
    simp [Scanner.finish, Scanner.start]

/- A text is scanned as its lines are. -/
theorem scan_eq_ok_iff
    {text : String}
    {sections : List Section} :
    scan text = .ok sections ↔
      Blocks (Text.lines text) sections :=
  scanLines_eq_ok_iff

end Palimpsest
