import Palimpsest.Proofs.Output.RoundTrip

/-
  Updating the file of a source unit.

  An update that succeeded can be repeated: the second run
  finds the text of the first one, writes it once more and
  changes nothing.  A section that was recovered and put back
  into the tree is in the new text exactly when the tree
  writes it; the sections around groups, templates and modules
  and those of a module's children are put back and lost.

  Main declarations:
    * `SourceUnit.exists_roundTrip_of_update`
    * `SourceUnit.update_again`
    * `Keeps`
    * `SourceUnit.update_keeps_iff`
-/

namespace Palimpsest

------------------------------------------------------------
-- One Update
------------------------------------------------------------

namespace SourceUnit

variable {e : Emitter} {unit other : SourceUnit}
variable {t u : FileTree} {report : UnitReport}
variable {summary : Summary}

/-
  An update that succeeds is a round trip from a path to the
  same path, and so is every run of a rebuilt unit.
-/
theorem exists_roundTrip_of_update
    (hUpdate : e.strategy = .update)
    (hRun : (unit.chain e).run t = (report, u))
    (hOk : report.outcome = .ok summary) :
    ∃ path,
      report.destination = some path ∧
        (e.roundTrip unit.tree path path).run t =
          (.ok summary, u) ∧
        ∀ other, unit.Rebuilt other → ∀ v,
          (other.chain e).run v =
            ({ report with
                outcome :=
                  ((e.roundTrip other.tree path path).run
                    v).1 },
              ((e.roundTrip other.tree path path).run v).2) := by
  rcases relative?_of_success hRun hOk with ⟨relative, hPath⟩
  have hSame : e.source relative = e.destination relative := by
    unfold Emitter.source Emitter.destination
    rw [hUpdate]
    rfl
  rw [run_chain hPath, hSame] at hRun
  rcases Prod.mk.inj hRun with ⟨hReport, hTree⟩
  subst hReport
  refine ⟨e.destination relative, rfl,
    Prod.ext hOk hTree, ?_⟩
  intro other hBuilt v
  have hOther : other.relative? e = some relative := by
    rw [← hBuilt.relative?, hPath]
  rw [run_chain hOther, hSame, hBuilt.name, hBuilt.kind]

/- An update renders in the marked style. -/
theorem render_of_update
    (hUpdate : e.strategy = .update)
    (f : Fragment) :
    e.render f = f.render e.indent .marked := by
  unfold Emitter.render
  rw [hUpdate]
  rfl

------------------------------------------------------------
-- Updating Again
------------------------------------------------------------

/-
  Putting back what was recovered from a text makes the same
  text again.
-/
theorem render_restore_again
    {f : Fragment}
    (hIds : f.sectionIds.Nodup)
    (recovered : List Section)
    (indent : String)
    (style : SectionStyle) :
    (f.mapSections
        (Graft.restore
          (f.emitted.map (Graft.restore recovered)))).render
        indent style =
      (f.mapSections (Graft.restore recovered)).render
        indent style := by
  apply Fragment.render_mapSections_congr
  intro s hs
  exact Graft.restore_map_of_mem (Graft.id_restore recovered)
    (Fragment.nodup_emittedIds hIds) hs

/- No written section is an orphan of its own tree. -/
theorem orphanedIds_emitted
    (f : Fragment)
    (recovered : List Section) :
    Graft.orphanedIds
        (f.emitted.map (Graft.restore recovered))
        f.sectionIds = [] := by
  unfold Graft.orphanedIds
  rw [List.filter_eq_nil_iff]
  intro id hId
  rw [List.mem_eraseDups] at hId
  unfold Graft.ids at hId
  rw [List.map_map] at hId
  rcases List.mem_map.mp hId with ⟨s, hs, rfl⟩
  have hIn : s.id ∈ f.sectionIds :=
    f.emittedIds_subset (List.mem_map_of_mem hs)
  simpa [Graft.id_restore] using hIn

/-
  A round trip that succeeded succeeds again, with a rebuilt
  tree, on the file tree that it left, and changes nothing
  there.
-/
theorem roundTrip_again
    {f g : Fragment}
    {path : FilePath}
    (hUpdate : e.strategy = .update)
    (hIndent : IsIndentation e.indent)
    (hText : f.HasPlainText)
    (hSections : ∀ s ∈ f.emitted, s.IsRecoverable)
    (hBuilt : f.Rebuilt g)
    (hRun :
      (e.roundTrip f path path).run t = (.ok summary, u)) :
    ∃ again,
      (e.roundTrip g path path).run u = (.ok again, u) ∧
        again.sourceFound = true ∧
        again.checksum = summary.checksum ∧
        again.orphaned = [] := by
  rcases Emitter.roundTrip_eq_ok_iff.mp hRun with
    ⟨hIds, previous, p, _, hPrepare, hWrite, rfl⟩
  rcases (Emitter.prepare_eq_ok_iff.mp
      hPrepare).exists_recovered with
    ⟨recovered, hRecovered, hTree⟩
  have hSettled := Chain.settled_of_writeText hWrite
  have hScan :
      scan (e.render p.tree) =
        .ok (f.emitted.map (Graft.restore recovered)) := by
    rw [render_of_update hUpdate, hTree]
    exact Fragment.scan_render_restored hIndent hText
      hRecovered (fun s hs _ => hSections s hs)
  have hSameIds : g.sectionIds = f.sectionIds := by
    unfold Fragment.sectionIds
    rw [hBuilt.sections]
  have hIdsAgain : g.sectionIds.Nodup := by
    rw [hSameIds]
    exact hIds
  have hPrepareAgain :=
    (@Emitter.prepare_some_eq_ok_iff g path _ _).mpr
      ⟨_, _, hScan, graft_eq_ok_iff.mpr ⟨hIdsAgain, rfl⟩, rfl⟩
  have hAgain :
      e.render
          (g.mapSections
            (Graft.restore
              (f.emitted.map (Graft.restore recovered)))) =
        e.render p.tree := by
    rw [hTree, render_of_update hUpdate,
      render_of_update hUpdate, ← hBuilt.render_mapSections]
    exact render_restore_again hIds recovered _ _
  have hWriteAgain := Chain.writeText_of_settled hSettled
  rw [← hAgain] at hWriteAgain
  refine ⟨_, Emitter.roundTrip_eq_ok_iff.mpr
    ⟨hIdsAgain, _, _, hSettled.2.read, hPrepareAgain,
      hWriteAgain, rfl⟩, rfl, ?_, ?_⟩
  · dsimp only
    rw [hAgain]
  · dsimp only
    rw [hSameIds]
    exact orphanedIds_emitted f recovered

/-
  An update is a fixed point: when an update of a fresh unit
  has succeeded, whatever the file held before, updating with
  the same tree, built once more, succeeds, finds the previous
  text, reports the same checksum and no orphans, and leaves
  the file tree as it is.  Both times the file holds the text
  that has the checksum.
-/
theorem update_again
    (hUpdate : e.strategy = .update)
    (hIndent : IsIndentation e.indent)
    (hFresh : ∀ s ∈ unit.tree.sections, s.IsFresh)
    (hText : unit.tree.HasPlainText)
    (hBuilt : unit.Rebuilt other)
    (hRun : (unit.chain e).run t = (report, u))
    (hOk : report.outcome = .ok summary) :
    ∃ again,
      (other.chain e).run u =
          ({ report with outcome := .ok again }, u) ∧
        again.sourceFound = true ∧
        again.checksum = summary.checksum ∧
        again.orphaned = [] ∧
        IsTold e t u unit report.destination summary ∧
        IsTold e u u other report.destination again := by
  rcases exists_roundTrip_of_update hUpdate hRun hOk with
    ⟨path, _, hFirst, hChain⟩
  have hSections : ∀ s ∈ unit.tree.emitted,
      s.IsRecoverable := by
    intro s hs
    exact (hFresh s (unit.tree.emitted_subset hs)).isRecoverable
  rcases roundTrip_again hUpdate hIndent hText hSections
      hBuilt.tree hFirst with
    ⟨again, hSecond, hFound, hChecksum, hOrphaned⟩
  have hRunAgain :
      (other.chain e).run u =
        ({ report with outcome := .ok again }, u) := by
    rw [hChain other hBuilt u, hSecond]
  have hTold := isTold_of_success hRun hOk
  have hToldAgain := isTold_of_success hRunAgain rfl
  exact ⟨again, hRunAgain, hFound, hChecksum, hOrphaned,
    hTold, hToldAgain⟩

/- Where the files of the examples are. -/
def sampleEmitter : Emitter :=
  Emitter.new ⟨"src"⟩ "  " none

/- A class without any code in its sections. -/
def sampleUnit : SourceUnit :=
  .classifier (.invoice [] [] [])

/- The class, built once more with other ids. -/
def sampleUnitAgain : SourceUnit :=
  .classifier
    ((Fragment.invoice [] [] []).renumber
      (fun id => ⟨id.number + 7⟩))

/-
  A file that was edited by hand: lines that end in carriage
  returns, and a section that the class does not have.
-/
def sampleText : String :=
  "// ----------- << extras >>\r\na\r\n// ----------- >>\n" ++
    "// ----------- << b >>\n// ----------- >>"

/- The files before the first update. -/
def sampleFiles : FileTree :=
  ((FileTree.empty.put ["src"] .directory).put
    ["src", "app"] .directory).put
      ["src", "app", "Invoice.java"] (Node.ofText sampleText)

/- The class can be built and updated again. -/
theorem update_again_sample :
    ∃ report summary u again,
      (sampleUnit.chain sampleEmitter).run sampleFiles =
          (report, u) ∧
        report.outcome = .ok summary ∧
        (sampleUnitAgain.chain sampleEmitter).run u =
          ({ report with outcome := .ok again }, u) ∧
        again.sourceFound = true ∧
        again.checksum = summary.checksum ∧
        again.orphaned = [] ∧
        IsTold sampleEmitter sampleFiles u sampleUnit
          report.destination summary ∧
        IsTold sampleEmitter u u sampleUnitAgain
          report.destination again := by
  have hSuccess :
      ((sampleUnit.chain sampleEmitter).run
        sampleFiles).1.IsSuccess := by
    decide +kernel
  have hBuilt : sampleUnit.Rebuilt sampleUnitAgain :=
    .classifier rfl
  cases hRun : (sampleUnit.chain sampleEmitter).run
      sampleFiles with
  | mk report u =>
      rw [hRun] at hSuccess
      rcases UnitReport.exists_outcome_of_isSuccess
          hSuccess with ⟨summary, hOk⟩
      rcases update_again rfl (by decide +kernel)
          (by decide +kernel) (by decide +kernel) hBuilt
          hRun hOk with ⟨again, hAgain⟩
      exact ⟨report, summary, u, again, rfl, hOk, hAgain⟩

------------------------------------------------------------
-- What An Update Keeps
------------------------------------------------------------

/-
  For a path that is updated over a previous text, the new
  text holds the sections that the tree writes, with what was
  recovered put back.
-/
theorem exists_written_of_update
    {previous : String}
    {recovered : List Section}
    {path : FilePath}
    (hUpdate : e.strategy = .update)
    (hIndent : IsIndentation e.indent)
    (hText : unit.tree.HasPlainText)
    (hRead : t.readIfExists path = .ok (some previous))
    (hScan : scan previous = .ok recovered)
    (hSections :
      ∀ s ∈ unit.tree.emitted,
        s.id ∉ Graft.ids recovered → s.IsRecoverable)
    (hRun :
      (e.roundTrip unit.tree path path).run t =
        (.ok summary, u)) :
    unit.tree.sectionIds.Nodup ∧
      summary.grafted =
        Graft.appliedIds recovered unit.tree.sectionIds ∧
      summary.orphaned =
        Graft.orphanedIds recovered unit.tree.sectionIds ∧
      ∃ text,
        u.readIfExists path = .ok (some text) ∧
          scan text =
            .ok (unit.tree.emitted.map
              (Graft.restore recovered)) := by
  rcases Emitter.roundTrip_eq_ok_iff.mp hRun with
    ⟨hIds, _, p, hFound, hPrepare, hWrite, rfl⟩
  rw [hRead] at hFound
  cases hFound
  rcases Emitter.prepare_some_eq_ok_iff.mp hPrepare with
    ⟨others, g, hOthers, hGraft, rfl⟩
  rw [hScan] at hOthers
  cases hOthers
  rcases graft_eq_ok_iff.mp hGraft with ⟨_, rfl⟩
  refine ⟨hIds, rfl, rfl, _,
    (Chain.settled_of_writeText hWrite).2.read, ?_⟩
  rw [render_of_update hUpdate]
  exact Fragment.scan_render_restored hIndent hText
    (Emitter.isRecoverable_of_scan hScan) hSections

end SourceUnit

/-
  The written sections keep what was recovered for an id: one
  of them has the id and holds exactly the lines that were
  recovered last.
-/
def Keeps
    (recovered written : List Section)
    (id : SectionId) : Prop :=
  ∃ s ∈ written,
    s.id = id ∧
      Graft.lastContents? recovered id = some s.contents

section Restored

variable {recovered : List Section} {f : Fragment}

/-
  What was recovered last for an id that the tree writes is
  written.
-/
theorem mem_restored_of_emitted
    {s : Section}
    (hLast :
      Graft.lastContents? recovered s.id =
        some s.contents)
    (hEmitted : s.id ∈ f.emittedIds) :
    s ∈ f.emitted.map (Graft.restore recovered) := by
  rcases List.mem_map.mp hEmitted with ⟨o, hO, hId⟩
  have hRestored : Graft.restore recovered o = s := by
    unfold Graft.restore
    rw [hId, hLast]
    unfold Section.replace
    rw [hId]
  rw [← hRestored]
  exact List.mem_map_of_mem hO

/-
  Putting sections back keeps exactly the ids that the tree
  writes.
-/
theorem keeps_restored_iff
    {id : SectionId}
    (hId : id ∈ Graft.ids recovered) :
    Keeps recovered
        (f.emitted.map (Graft.restore recovered)) id ↔
      id ∈ f.emittedIds := by
  constructor
  · rintro ⟨t, hT, rfl, _⟩
    rcases List.mem_map.mp hT with ⟨s, hs, rfl⟩
    rw [Graft.id_restore]
    exact List.mem_map_of_mem hs
  · intro hEmitted
    cases hLast : Graft.lastContents? recovered id with
    | none =>
        exact absurd hId
          (Graft.lastContents?_eq_none_iff.mp hLast)
    | some contents =>
        exact ⟨⟨id, contents⟩,
          mem_restored_of_emitted hLast hEmitted, rfl, hLast⟩

/-
  Every recovered section is written, an orphan, superseded,
  or one that the tree has and does not write.
-/
theorem written_or_orphaned_or_superseded
    (hIds : f.sectionIds.Nodup)
    {front back : List Section}
    {s : Section}
    (hSplit : recovered = front ++ s :: back) :
    s ∈ f.emitted.map (Graft.restore recovered) ∨
      s.id ∈ Graft.orphanedIds recovered f.sectionIds ∨
      s.id ∈ Graft.ids back ∨
      s.id ∈ f.unwrittenIds := by
  have hMem : s.id ∈ Graft.ids recovered := by
    rw [hSplit]
    exact List.mem_map_of_mem (by simp)
  by_cases hBack : s.id ∈ Graft.ids back
  · exact .inr (.inr (.inl hBack))
  by_cases hUnwritten : s.id ∈ f.unwrittenIds
  · exact .inr (.inr (.inr hUnwritten))
  by_cases hTree : s.id ∈ f.sectionIds
  · left
    apply mem_restored_of_emitted
    · rw [Graft.lastContents?_eq_some_iff]
      exact ⟨front, s, back, hSplit, rfl, rfl, hBack⟩
    · rw [Fragment.mem_emittedIds_iff hIds hTree]
      exact hUnwritten
  · right
    left
    unfold Graft.orphanedIds
    rw [List.mem_filter, List.mem_eraseDups,
      decide_eq_true_eq]
    exact ⟨hMem, hTree⟩

end Restored

namespace SourceUnit

variable {e : Emitter} {unit : SourceUnit}
variable {t u : FileTree} {report : UnitReport}
variable {summary : Summary}

/-
  An update keeps the lines that it reports as grafted exactly
  for the ids that the tree writes.  Every recovered section
  is in the new text, an orphan, or superseded by a later one
  with the same id, unless the tree does not write it.
-/
theorem update_keeps_iff
    {path : FilePath}
    {previous : String}
    {recovered : List Section}
    (hUpdate : e.strategy = .update)
    (hIndent : IsIndentation e.indent)
    (hText : unit.tree.HasPlainText)
    (hRun : (unit.chain e).run t = (report, u))
    (hOk : report.outcome = .ok summary)
    (hPath : report.destination = some path)
    (hRead : t.readIfExists path = .ok (some previous))
    (hScan : scan previous = .ok recovered)
    (hSections :
      ∀ s ∈ unit.tree.emitted,
        s.id ∉ Graft.ids recovered → s.IsRecoverable) :
    ∃ text written,
      u.readIfExists path = .ok (some text) ∧
        scan text = .ok written ∧
        (∀ id ∈ summary.grafted,
          Keeps recovered written id ↔
            id ∉ unit.tree.unwrittenIds) ∧
        ∀ front s back,
          recovered = front ++ s :: back →
            s ∈ written ∨
              s.id ∈ summary.orphaned ∨
              s.id ∈ Graft.ids back ∨
              s.id ∈ unit.tree.unwrittenIds := by
  rcases exists_roundTrip_of_update hUpdate hRun hOk with
    ⟨other, hOther, hTrip, _⟩
  rw [hPath] at hOther
  cases hOther
  rcases exists_written_of_update hUpdate hIndent hText hRead
      hScan hSections hTrip with
    ⟨hIds, hGrafted, hOrphaned, text, hNew, hWritten⟩
  refine ⟨text, _, hNew, hWritten, ?_, ?_⟩
  · intro id hId
    rw [hGrafted] at hId
    unfold Graft.appliedIds at hId
    rw [List.mem_filter, decide_eq_true_eq] at hId
    rw [keeps_restored_iff hId.2]
    exact Fragment.mem_emittedIds_iff hIds hId.1
  · intro front s back hSplit
    rw [hOrphaned]
    exact written_or_orphaned_or_superseded hIds hSplit

/-
  A class whose header is a group with a section before it,
  and a method with a body.
-/
def ledger : SourceUnit :=
  .classifier
    (.classifier
      { Info.new ⟨0⟩ "A" .classifier with
        qualifiedName := some ⟨["A"]⟩ }
      (some
        (.group
          { Info.new ⟨1⟩ "header" .other with
            before := [Section.empty ⟨"X", by decide⟩] } []))
      none "class A"
      [.method (Info.new ⟨2⟩ "run" .method) "void run()" false
        (some (Section.empty ⟨"Y", by decide⟩))]
      none)

/- What was recovered for the class from its previous file. -/
def ledgerSections : List Section :=
  [⟨⟨"X", by decide⟩, ["keep"]⟩,
    ⟨⟨"Y", by decide⟩, ["body"]⟩]

/- The previous file of the class. -/
def ledgerText : String :=
  "// ----------- << X >>\nkeep\n// ----------- >>\n" ++
    "// ----------- << Y >>\nbody\n// ----------- >>"

/- The file tree with the previous file of the class. -/
def ledgerFiles : FileTree :=
  (FileTree.empty.put ["src"] .directory).put
    ["src", "A.java"] (Node.ofText ledgerText)

/-
  Both sections are reported as grafted.  The body of the
  method is kept, and the section before the group is lost.
-/
theorem update_keeps_iff_ledger :
    ∃ report summary u text written,
      (ledger.chain sampleEmitter).run ledgerFiles =
          (report, u) ∧
        report.outcome = .ok summary ∧
        summary.grafted = ledgerSections.map (fun s => s.id) ∧
        u.readIfExists ⟨"src/A.java"⟩ = .ok (some text) ∧
        scan text = .ok written ∧
        ¬ Keeps ledgerSections written ⟨"X", by decide⟩ ∧
        Keeps ledgerSections written ⟨"Y", by decide⟩ := by
  have hReport :
      ((ledger.chain sampleEmitter).run
            ledgerFiles).1.destination =
          some ⟨"src/A.java"⟩ ∧
        ((ledger.chain sampleEmitter).run
            ledgerFiles).1.summary?.map (fun s => s.grafted) =
          some (ledgerSections.map (fun s => s.id)) := by
    decide +kernel
  have hRead :
      ledgerFiles.readIfExists ⟨"src/A.java"⟩ =
        .ok (some ledgerText) := by
    rfl
  have hScan : scan ledgerText = .ok ledgerSections := by
    rfl
  cases hRun : (ledger.chain sampleEmitter).run
      ledgerFiles with
  | mk report u =>
      rw [hRun] at hReport
      rcases hReport with ⟨hPath, hGrafted⟩
      rcases Option.map_eq_some_iff.mp hGrafted with
        ⟨summary, hSummary, hSame⟩
      have hOk := UnitReport.summary?_eq_some_iff.mp hSummary
      rcases update_keeps_iff rfl (by decide +kernel)
          (by decide +kernel) hRun hOk hPath hRead hScan
          (by decide +kernel) with
        ⟨text, written, hNew, hWritten, hKeeps, _⟩
      refine ⟨report, summary, u, text, written, rfl, hOk,
        hSame, hNew, hWritten, ?_, ?_⟩
      · rw [hKeeps _ (by rw [hSame]; decide)]
        decide
      · rw [hKeeps _ (by rw [hSame]; decide)]
        decide

end SourceUnit

end Palimpsest
