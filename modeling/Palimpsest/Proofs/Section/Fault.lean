import Mathlib.Data.List.Induction
import Mathlib.Tactic.ByContra
import Palimpsest.Proofs.Section.Blocks

/-
  Where scanning stops.

  A text that is not made of plain lines and blocks is at
  fault.  The fault is found at the first line after which no
  further lines could make the text a marked one: a begin
  marker with a refused id outside every block, or a begin
  marker inside one.  If there is no such line, the last block
  is left open, and the fault names the line that opened it.

  Main declarations:
    * `Completable`
    * `OpenBlock`
    * `FaultIn`
    * `ScanError.IsFirst`
    * `scan_grammar`
-/

namespace Palimpsest

------------------------------------------------------------
-- Texts At Fault
------------------------------------------------------------

/- Further lines can make a marked text of the lines. -/
def Completable (lines : List String) : Prop :=
  ∃ rest sections, Blocks (lines ++ rest) sections

/-
  The lines end in a block that is open: it has the id, and
  its begin marker is the line with the number.
-/
inductive OpenBlock : List String → SectionId → Nat → Prop
| mk
    {front : List String}
    {first : String}
    {contents : List String}
    {sections : List Section}
    {id : SectionId}
    (hFront : Blocks front sections)
    (hFirst : Marker.markedId? first = some id.text)
    (hInner : ∀ line ∈ contents, Marker.IsInner line) :
    OpenBlock (front ++ first :: contents) id
      (front.length + 1)

/- The fault of lines that are no marked text. -/
inductive FaultIn : List String → ScanError → Prop
| invalidId
    {front back : List String}
    {line text : String}
    {cause : InvalidSectionId}
    {sections : List Section}
    (hFront : Blocks front sections)
    (hLine : Marker.markedId? line = some text)
    (hText : SectionId.ofString text = .error cause) :
    FaultIn (front ++ line :: back)
      (.invalidId (front.length + 1) cause)
| nested
    {front back : List String}
    {line : String}
    {id : SectionId}
    {openedAt : Nat}
    (hFront : OpenBlock front id openedAt)
    (hEnd : ¬ Marker.IsEnd line)
    (hBegin : Marker.IsBegin line) :
    FaultIn (front ++ line :: back)
      (.nested id (front.length + 1))
| unterminated
    {lines : List String}
    {id : SectionId}
    {openedAt : Nat}
    (hLines : OpenBlock lines id openedAt) :
    FaultIn lines (.unterminated id openedAt)

/-
  The fault is at the first line after which the lines cannot
  be completed any more.  For a block that is left open there
  is no such line.
-/
def ScanError.IsFirst
    (lines : List String) : ScanError → Prop
| .invalidId line _ | .nested _ line =>
    line ≤ lines.length ∧
      ∀ count, Completable (lines.take count) ↔ count < line
| .unterminated _ _ => Completable lines

------------------------------------------------------------
-- Lines That Can Be Completed
------------------------------------------------------------

theorem Blocks.completable
    {lines : List String}
    {sections : List Section}
    (hBlocks : Blocks lines sections) :
    Completable lines :=
  ⟨[], sections, by simpa using hBlocks⟩

/- An end marker closes an open block. -/
theorem OpenBlock.close
    {lines : List String}
    {id : SectionId}
    {openedAt : Nat}
    (hOpen : OpenBlock lines id openedAt)
    {last : String}
    (hLast : Marker.IsEnd last) :
    ∃ sections, Blocks (lines ++ [last]) sections := by
  cases hOpen with
  | @mk front first contents sections id hFront hFirst
      hInner =>
      have hBlock :=
        Blocks.of_section (s := ⟨id, contents⟩) hFirst
          hInner hLast
      refine ⟨sections ++ [⟨id, contents⟩], ?_⟩
      rw [List.append_assoc, List.cons_append]
      exact hFront.append hBlock

theorem OpenBlock.completable
    {lines : List String}
    {id : SectionId}
    {openedAt : Nat}
    (hOpen : OpenBlock lines id openedAt) :
    Completable lines := by
  have hEnd : Marker.IsEnd Marker.endMarker := by
    decide
  rcases hOpen.close hEnd with ⟨sections, hBlocks⟩
  exact ⟨[Marker.endMarker], sections, hBlocks⟩

theorem Completable.of_append
    {lines rest : List String}
    (hAll : Completable (lines ++ rest)) :
    Completable lines := by
  rcases hAll with ⟨more, sections, hBlocks⟩
  exact ⟨rest ++ more, sections,
    by rwa [List.append_assoc] at hBlocks⟩

------------------------------------------------------------
-- Scanning Finds The Fault
------------------------------------------------------------

namespace Scanner

/- Lines are read in two parts. -/
theorem feedAll_append
    (s : Scanner)
    (lines rest : List String) :
    s.feedAll (lines ++ rest) =
      (s.feedAll lines).bind
        (fun next => next.feedAll rest) := by
  induction lines generalizing s with
  | nil =>
      rfl
  | cons line lines ih =>
      rw [List.cons_append, feedAll, feedAll]
      rcases s.feed line with ⟨next, _ | _⟩
      · rfl
      · exact ih next

/- A marked text leaves no section open. -/
theorem exists_feedAll_of_blocks
    {lines : List String}
    {sections : List Section}
    (hBlocks : Blocks lines sections) :
    ∃ s,
      start.feedAll lines = .ok s ∧
        s.line = lines.length ∧ s.open? = none := by
  have hRun := feedAll_of_blocks (s := start) hBlocks rfl
  exact ⟨_, hRun, Nat.zero_add _, rfl⟩

/- Lines that end in an open block leave its section open. -/
theorem exists_feedAll_of_openBlock
    {lines : List String}
    {id : SectionId}
    {openedAt : Nat}
    (hOpen : OpenBlock lines id openedAt) :
    ∃ s current,
      start.feedAll lines = .ok s ∧
        s.line = lines.length ∧
          s.open? = some current ∧
            current.id = id ∧ current.openedAt = openedAt := by
  cases hOpen with
  | @mk front first contents sections id hFront hFirst
      hInner =>
      rcases exists_feedAll_of_blocks hFront with
        ⟨s, hRun, hLine, hClosed⟩
      have hAll : start.feedAll (front ++ first :: contents) =
          .ok ⟨s.line + 1 + contents.length, s.closed,
            some ⟨id, s.line + 1, contents.toArray⟩⟩ := by
        rw [feedAll_append, hRun]
        dsimp only [Except.bind]
        rw [feedAll_cons_of_ok (feed_begin hClosed hFirst),
          ← List.append_nil contents,
          feedAll_contents hInner [] rfl, feedAll]
        simp
      refine ⟨_, _, hAll, ?_, rfl, rfl, ?_⟩
      · dsimp only
        rw [hLine, List.length_append, List.length_cons]
        omega
      · rw [hLine]

end Scanner

/- A fault in the lines is the one that scanning reports. -/
theorem FaultIn.scanLines
    {lines : List String}
    {fault : ScanError}
    (hFault : FaultIn lines fault) :
    scanLines lines = .error fault := by
  unfold Palimpsest.scanLines
  cases hFault with
  | @invalidId front back line text cause sections hFront
      hLine hText =>
      rcases Scanner.exists_feedAll_of_blocks hFront with
        ⟨s, hRun, hCount, hClosed⟩
      have hRefused :
          ¬ SectionId.Valid text ∧ cause = ⟨text⟩ := by
        unfold SectionId.ofString at hText
        split at hText
        · cases hText
        · rename_i hValid
          cases hText
          exact ⟨hValid, rfl⟩
      have hLast :=
        Scanner.feed_invalid hClosed hLine hRefused.1
      rw [Scanner.feedAll_append, hRun]
      dsimp only [Except.bind]
      rw [Scanner.feedAll_cons_of_error hLast, hCount,
        hRefused.2]
  | @nested front back line id openedAt hFront hEnd hBegin =>
      rcases Scanner.exists_feedAll_of_openBlock hFront with
        ⟨s, current, hRun, hCount, hOpen, hId, _⟩
      have hLast := Scanner.feed_nested hOpen hEnd hBegin
      rw [Scanner.feedAll_append, hRun]
      dsimp only [Except.bind]
      rw [Scanner.feedAll_cons_of_error hLast, hCount, hId]
  | unterminated hLines =>
      rcases Scanner.exists_feedAll_of_openBlock hLines with
        ⟨s, current, hRun, _, hOpen, hId, hLine⟩
      rw [hRun]
      dsimp only [Scanner.finish]
      rw [hOpen]
      dsimp only
      rw [hId, hLine]

------------------------------------------------------------
-- Every Text Is Marked Or At Fault
------------------------------------------------------------

/- What one more line makes of a marked text. -/
theorem blocks_or_faultIn_of_blocks
    {front : List String}
    {sections : List Section}
    (hFront : Blocks front sections)
    (line : String) :
    (∃ more, Blocks (front ++ [line]) more) ∨
      ∃ fault, FaultIn (front ++ [line]) fault := by
  cases hId : Marker.markedId? line with
  | none =>
      have hPlain : ¬ Marker.IsBegin line := by
        simp [Marker.IsBegin, hId]
      exact .inl ⟨_, hFront.append (.plain hPlain .nil)⟩
  | some text =>
      cases hText : SectionId.ofString text with
      | ok id =>
          rw [SectionId.ofString_eq_ok_iff] at hText
          rw [← hText] at hId
          exact .inr ⟨_, .unterminated
            (.mk hFront hId (by simp))⟩
      | error cause =>
          exact .inr ⟨_, .invalidId hFront hId hText⟩

/- What one more line makes of an open block. -/
theorem blocks_or_faultIn_of_openBlock
    {front : List String}
    {id : SectionId}
    {openedAt : Nat}
    (hFront : OpenBlock front id openedAt)
    (line : String) :
    (∃ more, Blocks (front ++ [line]) more) ∨
      ∃ fault, FaultIn (front ++ [line]) fault := by
  by_cases hEnd : Marker.IsEnd line
  · exact .inl (hFront.close hEnd)
  · by_cases hBegin : Marker.IsBegin line
    · exact .inr ⟨_, .nested hFront hEnd hBegin⟩
    · cases hFront with
      | @mk front first contents sections id hDone hFirst
          hInner =>
          have hMore : ∀ other ∈ contents ++ [line],
              Marker.IsInner other := by
            rw [List.forall_mem_append,
              List.forall_mem_singleton]
            exact ⟨hInner, hEnd, hBegin⟩
          refine .inr
            ⟨.unterminated id (front.length + 1), ?_⟩
          rw [List.append_assoc, List.cons_append]
          exact .unterminated (.mk hDone hFirst hMore)

/- Lines are a marked text or have a fault. -/
theorem blocks_or_faultIn (lines : List String) :
    (∃ sections, Blocks lines sections) ∨
      ∃ fault, FaultIn lines fault := by
  induction lines using List.reverseRecOn with
  | nil =>
      exact .inl ⟨[], .nil⟩
  | append_singleton front line ih =>
      rcases ih with ⟨sections, hBlocks⟩ | ⟨fault, hFault⟩
      · exact blocks_or_faultIn_of_blocks hBlocks line
      · -- A line at fault stays so, whatever follows it.
        cases hFault with
        | invalidId hFront hLine hText =>
            right
            rw [List.append_assoc, List.cons_append]
            exact ⟨_, .invalidId hFront hLine hText⟩
        | nested hFront hEnd hBegin =>
            right
            rw [List.append_assoc, List.cons_append]
            exact ⟨_, .nested hFront hEnd hBegin⟩
        | unterminated hLines =>
            exact blocks_or_faultIn_of_openBlock hLines line

theorem scanLines_eq_error_iff
    {lines : List String}
    {fault : ScanError} :
    scanLines lines = .error fault ↔ FaultIn lines fault := by
  constructor
  · intro hScan
    rcases blocks_or_faultIn lines with
      ⟨sections, hBlocks⟩ | ⟨other, hOther⟩
    · rw [scanLines_eq_ok_iff.mpr hBlocks] at hScan
      cases hScan
    · have hSame := hOther.scanLines.symm.trans hScan
      cases hSame
      exact hOther
  · exact FaultIn.scanLines

------------------------------------------------------------
-- The First Line At Fault
------------------------------------------------------------

/- No marked text starts with lines that have a fault. -/
theorem not_completable_of_fault
    {front : List String}
    {line : String}
    (hFault : ∀ back, ∃ fault,
      FaultIn (front ++ line :: back) fault) :
    ¬ Completable (front ++ [line]) := by
  rintro ⟨rest, sections, hBlocks⟩
  rw [List.append_assoc, List.singleton_append] at hBlocks
  rcases hFault rest with ⟨fault, hRest⟩
  have hOk := scanLines_eq_ok_iff.mpr hBlocks
  rw [hRest.scanLines] at hOk
  cases hOk

/-
  Lines up to a number can be completed exactly below that
  number, if the line there is the first that cannot.
-/
theorem completable_take_iff
    {front back : List String}
    {line : String}
    (hFront : Completable front)
    (hLine : ¬ Completable (front ++ [line]))
    (count : Nat) :
    Completable ((front ++ line :: back).take count) ↔
      count < front.length + 1 := by
  constructor
  · intro hTake
    by_contra hCount
    have hPrefix :
        front ++ [line] <+:
          (front ++ line :: back).take count := by
      rw [List.prefix_take_iff]
      refine ⟨⟨back, by simp⟩, ?_⟩
      rw [List.length_append, List.length_singleton]
      omega
    rcases hPrefix with ⟨rest, hRest⟩
    rw [← hRest] at hTake
    exact hLine hTake.of_append
  · intro hCount
    rw [List.take_append_of_le_length (by omega)]
    rw [← List.take_append_drop count front] at hFront
    exact hFront.of_append

theorem FaultIn.isFirst
    {lines : List String}
    {fault : ScanError}
    (hFault : FaultIn lines fault) :
    fault.IsFirst lines := by
  cases hFault with
  | invalidId hFront hLine hText =>
      refine ⟨by simp, completable_take_iff
        hFront.completable (not_completable_of_fault ?_)⟩
      intro back
      exact ⟨_, .invalidId hFront hLine hText⟩
  | nested hFront hEnd hBegin =>
      refine ⟨by simp, completable_take_iff
        hFront.completable (not_completable_of_fault ?_)⟩
      intro back
      exact ⟨_, .nested hFront hEnd hBegin⟩
  | unterminated hLines =>
      exact hLines.completable

/-
  Scanning accepts exactly the marked texts and gives their
  blocks in order.  It reports a fault exactly when the text
  has it, and then the line of the fault is the first that
  spoils the text.
-/
theorem scan_grammar (text : String) :
    (∀ sections,
      scan text = .ok sections ↔
        Blocks (Text.lines text) sections) ∧
      ∀ fault,
        scan text = .error fault ↔
          FaultIn (Text.lines text) fault ∧
            fault.IsFirst (Text.lines text) := by
  refine ⟨fun sections => scan_eq_ok_iff, fun fault => ?_⟩
  unfold scan
  rw [scanLines_eq_error_iff]
  exact ⟨fun hFault => ⟨hFault, hFault.isFirst⟩, And.left⟩

end Palimpsest
