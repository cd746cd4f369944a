import Palimpsest.Output.Emitter
import Palimpsest.Proofs.Files.Write
import Palimpsest.Proofs.Fragment.Rebuilt
import Palimpsest.Proofs.Graft

/-
  What one run of a source unit does.

  A source unit is a classifier or the package fragment of a
  module.  A run that succeeds has read the previous text,
  restored what was recovered from it, and written the marked
  or inline rendering of the restored tree.  Afterwards the
  path holds that text, and writing it again would change
  nothing.

  Main declarations:
    * `Chain.settled_of_writeText`
    * `Chain.writeText_of_settled`
    * `Emitter.roundTrip_eq_ok_iff`
    * `Emitter.prepare_some_eq_ok_iff`
    * `Fragment.TakesOver`
    * `Fragment.TakesOver.exists_recovered`
    * `SourceUnit`
    * `SourceUnit.run_chain`
    * `SourceUnit.IsTold`
    * `SourceUnit.isTold_of_success`
    * `SourceUnit.Rebuilt`
-/

namespace Palimpsest

------------------------------------------------------------
-- Settled Paths
------------------------------------------------------------

/- The directory that a file is in is there, if it has one. -/
def FileTree.HasParent
    (t : FileTree)
    (path : FilePath) : Prop :=
  ∀ parent ∈ path.parent?,
    parent.text ≠ "" → t.IsDirectory parent

/- A path that holds a text, in a directory that is there. -/
def FileTree.Settled
    (t : FileTree)
    (path : FilePath)
    (text : String) : Prop :=
  t.HasParent path ∧ t.Holds path text

namespace Chain

variable {α : Type} {t u : FileTree}
variable {path : FilePath} {text : String}

/- Nothing is made when the directory of a file is there. -/
theorem run_insideParent
    (hParent : t.HasParent path)
    (next : Chain (Except UnitError α)) :
    (insideParent path next).run t = next.run t := by
  unfold insideParent
  cases hPath : path.parent? with
  | none =>
      rfl
  | some parent =>
      dsimp only
      by_cases hText : parent.text = ""
      · rw [if_pos hText]
      · rw [if_neg hText, run_bind]
        have hMake :=
          FileTree.ensureDir_of_isDirectory
            (hParent parent hPath hText)
        unfold makeDirs
        simp only [run, hMake]
        rfl

/-
  A chain that goes on inside the directory of a file goes on
  after that directory is there.
-/
theorem hasParent_of_run_insideParent
    {next : Chain (Except UnitError α)}
    {a : α}
    (hRun : (insideParent path next).run t = (.ok a, u)) :
    ∃ made : FileTree,
      made.HasParent path ∧ next.run made = (.ok a, u) := by
  unfold insideParent at hRun
  cases hPath : path.parent? with
  | none =>
      rw [hPath] at hRun
      refine ⟨t, ?_, hRun⟩
      intro parent hParent
      rw [hPath] at hParent
      cases hParent
  | some parent =>
      rw [hPath] at hRun
      dsimp only at hRun
      by_cases hText : parent.text = ""
      · rw [if_pos hText] at hRun
        refine ⟨t, ?_, hRun⟩
        intro other hOther hNe
        rw [hPath] at hOther
        cases hOther
        exact absurd hText hNe
      · rw [if_neg hText, run_bind] at hRun
        cases hMake : t.ensureDir parent with
        | mk answer made =>
            cases answer with
            | error fault =>
                simp [makeDirs, run, hMake,
                  Except.mapError] at hRun
            | ok _ =>
                simp only [makeDirs, run, hMake,
                  Except.mapError] at hRun
                refine ⟨made, ?_, hRun⟩
                intro other hOther hNe
                rw [hPath] at hOther
                cases hOther
                exact FileTree.isDirectory_of_ensureDir
                  hText hMake

/- After a text was written, its path is settled. -/
theorem settled_of_writeText
    (hRun : (writeText path text).run t = (.ok (), u)) :
    u.Settled path text := by
  unfold writeText at hRun
  rcases hasParent_of_run_insideParent hRun with
    ⟨made, hParent, hWrite⟩
  cases hAnswer : made.write path text with
  | mk answer written =>
      cases answer with
      | error fault =>
          simp [run, hAnswer, Except.mapError] at hWrite
      | ok _ =>
          simp only [run, hAnswer, Prod.mk.injEq] at hWrite
          rcases hWrite with ⟨_, rfl⟩
          have hKeeps :=
            FileTree.keepsDirectories_write hAnswer
          refine ⟨?_, FileTree.holds_of_write hAnswer⟩
          intro parent hIn hNe
          exact hKeeps.isDirectory (hParent parent hIn hNe)

/- Writing to a settled path changes nothing. -/
theorem writeText_of_settled
    (hSettled : t.Settled path text) :
    (writeText path text).run t = (.ok (), t) := by
  unfold writeText
  rw [run_insideParent hSettled.1]
  simp only [run, hSettled.2.write]
  rfl

end Chain

------------------------------------------------------------
-- Round Trips
------------------------------------------------------------

namespace Emitter

variable {e : Emitter} {f : Fragment} {t u : FileTree}
variable {source destination : FilePath}

/-
  A round trip succeeds when the ids are unique, the previous
  text can be read and taken apart, and the text of the
  prepared tree can be written.
-/
theorem roundTrip_eq_ok_iff {summary : Summary} :
    (e.roundTrip f source destination).run t =
        (.ok summary, u) ↔
      f.sectionIds.Nodup ∧
        ∃ previous p,
          t.readIfExists source = .ok previous ∧
            prepare source f previous = .ok p ∧
              (Chain.writeText destination
                  (e.render p.tree)).run t = (.ok (), u) ∧
                summary =
                  { p.summary with
                    checksum :=
                      some (Checksum.ofText
                        (e.render p.tree))
                    written := true } := by
  rw [← Fragment.ensureUniqueSections_eq_ok_iff]
  unfold roundTrip
  cases f.ensureUniqueSections with
  | error fault =>
      simp [Chain.run]
  | ok _ =>
      dsimp only
      rw [Chain.run_bind]
      simp only [Chain.readText, Chain.run]
      cases t.readIfExists source with
      | error fault =>
          simp [Except.mapError, Chain.run]
      | ok previous =>
          simp only [Except.mapError, Except.ok.injEq]
          cases hPrepare : prepare source f previous with
          | error fault =>
              simp [Chain.run, hPrepare]
          | ok p =>
              simp only [writePrepared, Chain.map,
                Chain.run_bind, Chain.run]
              cases hWrite :
                  (Chain.writeText destination
                    (e.render p.tree)).run t with
              | mk answer v =>
                  cases answer with
                  | error fault =>
                      simp [hPrepare, hWrite]
                  | ok _ =>
                      simp [hPrepare, hWrite, eq_comm,
                        and_comm]

/- The sections of a scanned text can be read back. -/
theorem isRecoverable_of_scan
    {text : String}
    {recovered : List Section}
    (hScan : scan text = .ok recovered) :
    ∀ s ∈ recovered, s.IsRecoverable := by
  rw [scan_eq_ok_iff] at hScan
  intro s hs line hLine
  rcases hScan.contents_subset hs line hLine with
    ⟨hMem, hInner⟩
  exact ⟨Text.newline_not_mem_of_mem_lines hMem, hInner⟩

/-
  Over a previous text, a tree is prepared by scanning the
  text and grafting what was recovered.
-/
theorem prepare_some_eq_ok_iff
    {text : String}
    {p : Prepared} :
    prepare source f (some text) = .ok p ↔
      ∃ recovered g,
        scan text = .ok recovered ∧
          graft f recovered = .ok g ∧
            p = ⟨g.tree, { Summary.blank with
              sourceFound := true
              grafted := g.applied
              orphaned := g.orphaned }⟩ := by
  unfold prepare
  cases hScan : scan text with
  | error fault =>
      simp [hScan]
  | ok recovered =>
      cases hGraft : graft f recovered with
      | error fault =>
          simp [hScan, hGraft]
      | ok g =>
          simp [hScan, hGraft, eq_comm]

end Emitter

/-
  What a tree takes over from a previous text: the sections
  that are scanned in the text are grafted onto the tree.
  Without a previous text the tree stays as it is.
-/
inductive Fragment.TakesOver (f : Fragment) :
    Option String → Fragment → Summary → Prop
where
| nothing :
    TakesOver f none f Summary.blank
| sections
    {text : String}
    {recovered : List Section}
    {g : Graft}
    (hScan : scan text = .ok recovered)
    (hGraft : graft f recovered = .ok g) :
    TakesOver f (some text) g.tree
      { Summary.blank with
        sourceFound := true
        grafted := g.applied
        orphaned := g.orphaned }

/-
  The tree is left with recovered sections put back.  Without
  a previous text nothing was recovered.
-/
theorem Fragment.TakesOver.exists_recovered
    {f tree : Fragment}
    {previous : Option String}
    {summary : Summary}
    (hTakes : f.TakesOver previous tree summary) :
    ∃ recovered,
      (∀ s ∈ recovered, s.IsRecoverable) ∧
        tree = f.mapSections (Graft.restore recovered) := by
  cases hTakes with
  | nothing =>
      refine ⟨[], by simp, ?_⟩
      symm
      apply Fragment.mapSections_eq_self
      intro s _
      rfl
  | @sections _ recovered _ hScan hGraft =>
      rw [(graft_eq_ok_iff.mp hGraft).2]
      exact ⟨recovered, Emitter.isRecoverable_of_scan hScan,
        rfl⟩

/- A tree is prepared with what it takes over. -/
theorem Emitter.prepare_eq_ok_iff
    {source : FilePath}
    {f : Fragment}
    {previous : Option String}
    {p : Prepared} :
    prepare source f previous = .ok p ↔
      f.TakesOver previous p.tree p.summary := by
  cases previous with
  | none =>
      constructor
      · intro hPrepare
        cases hPrepare
        exact .nothing
      · intro hTakes
        rcases p with ⟨tree, summary⟩
        cases hTakes
        rfl
  | some text =>
      rw [prepare_some_eq_ok_iff]
      constructor
      · rintro ⟨recovered, g, hScan, hGraft, rfl⟩
        exact .sections hScan hGraft
      · intro hTakes
        rcases p with ⟨tree, summary⟩
        cases hTakes with
        | sections hScan hGraft =>
            exact ⟨_, _, hScan, hGraft, rfl⟩

------------------------------------------------------------
-- Source Units
------------------------------------------------------------

/-
  A unit that is written to a file of its own and read back
  from it: a classifier, or the package fragment of the module
  with a name.
-/
inductive SourceUnit where
| classifier (f : Fragment)
| package (module : QualifiedName) (f : Fragment)

namespace SourceUnit

/- The tree that a unit is written from. -/
def tree : SourceUnit → Fragment
| .classifier f => f
| .package _ f => f

/- What a unit does to the file tree. -/
def chain (e : Emitter) : SourceUnit → Chain UnitReport
| .classifier f => e.classifierChain f
| .package module f => e.packageChain module f

/- The name of a unit in its report. -/
def name (e : Emitter) : SourceUnit → String
| .classifier f => f.unitName
| .package module _ =>
    module.dotted ++ "." ++ e.packageFileStem

/- The kind of a unit in its report. -/
def kind : SourceUnit → UnitKind
| .classifier _ => .classifier
| .package _ _ => .packageFile

/- The path of a unit below a root, if it has one. -/
def relative? (e : Emitter) : SourceUnit → Option FilePath
| .classifier f =>
    if f.kind = .classifier then
      f.info.qualifiedName.map e.filePath
    else
      none
| .package module _ => some (e.packageFilePath module)

variable {e : Emitter} {t : FileTree}

/- A unit with a path runs a round trip and reports on it. -/
theorem run_chain
    {unit : SourceUnit}
    {relative : FilePath}
    (hPath : unit.relative? e = some relative)
    (t : FileTree) :
    (unit.chain e).run t =
      (⟨unit.name e, unit.kind,
          some (e.destination relative),
          ((e.roundTrip unit.tree (e.source relative)
            (e.destination relative)).run t).1⟩,
        ((e.roundTrip unit.tree (e.source relative)
          (e.destination relative)).run t).2) := by
  cases unit with
  | classifier f =>
      dsimp only [relative?] at hPath
      by_cases hKind : f.kind = .classifier
      · rw [if_pos hKind, Option.map_eq_some_iff] at hPath
        rcases hPath with ⟨name, hName, rfl⟩
        simp only [chain, tree, SourceUnit.name, kind,
          Emitter.classifierChain, if_pos hKind,
          Fragment.requireQualifiedName, hName,
          Emitter.sourceChain, Chain.map, Chain.run_bind,
          Chain.run]
      · rw [if_neg hKind] at hPath
        cases hPath
  | package module f =>
      cases hPath
      simp only [chain, tree, name, kind,
        Emitter.packageChain, Emitter.sourceChain, Chain.map,
        Chain.run_bind, Chain.run]

/- A unit without a path fails. -/
theorem relative?_of_success
    {unit : SourceUnit}
    {u : FileTree}
    {report : UnitReport}
    {summary : Summary}
    (hRun : (unit.chain e).run t = (report, u))
    (hOk : report.outcome = .ok summary) :
    ∃ relative, unit.relative? e = some relative := by
  have hReport : ((unit.chain e).run t).1 = report :=
    congrArg Prod.fst hRun
  subst hReport
  cases unit with
  | classifier f =>
      dsimp only [relative?]
      by_cases hKind : f.kind = .classifier
      · rw [if_pos hKind]
        cases hName : f.info.qualifiedName with
        | none =>
            simp [chain, Emitter.classifierChain, hKind,
              Fragment.requireQualifiedName, hName, Chain.run,
              UnitReport.failed] at hOk
        | some name =>
            exact ⟨_, rfl⟩
      · simp [chain, Emitter.classifierChain, hKind,
          Chain.run, UnitReport.failed] at hOk
  | package module f =>
      exact ⟨_, rfl⟩

/-
  What is told of a unit that was written: its tree took over
  what the previous text held, its file holds the text of the
  tree that came of it, and the summary says what was taken
  over and has the checksum of that text.
-/
def IsTold
    (e : Emitter)
    (t u : FileTree)
    (unit : SourceUnit)
    (destination : Option FilePath)
    (summary : Summary) : Prop :=
  ∃ relative previous tree taken,
    unit.relative? e = some relative ∧
      destination = some (e.destination relative) ∧
      t.readIfExists (e.source relative) = .ok previous ∧
      unit.tree.TakesOver previous tree taken ∧
      u.Holds (e.destination relative) (e.render tree) ∧
      summary =
        { taken with
          checksum := some (Checksum.ofText (e.render tree))
          written := true }

/- It is so when a run of the unit was a success. -/
theorem isTold_of_success
    {unit : SourceUnit}
    {u : FileTree}
    {report : UnitReport}
    {summary : Summary}
    (hRun : (unit.chain e).run t = (report, u))
    (hOk : report.outcome = .ok summary) :
    IsTold e t u unit report.destination summary := by
  rcases relative?_of_success hRun hOk with ⟨relative, hFile⟩
  rw [run_chain hFile] at hRun
  rcases Prod.mk.inj hRun with ⟨rfl, hTree⟩
  have hTrip :
      (e.roundTrip unit.tree (e.source relative)
          (e.destination relative)).run t =
        (.ok summary, u) :=
    Prod.ext hOk hTree
  rcases Emitter.roundTrip_eq_ok_iff.mp hTrip with
    ⟨_, previous, p, hRead, hPrepare, hWrite, hSummary⟩
  exact ⟨relative, previous, p.tree, p.summary, hFile, rfl,
    hRead, Emitter.prepare_eq_ok_iff.mp hPrepare,
    (Chain.settled_of_writeText hWrite).2, hSummary⟩

------------------------------------------------------------
-- Rebuilt Units
------------------------------------------------------------

/- The same unit with a tree that was built once more. -/
inductive Rebuilt : SourceUnit → SourceUnit → Prop where
| classifier
    {f g : Fragment}
    (hBuilt : f.Rebuilt g) :
    Rebuilt (.classifier f) (.classifier g)
| package
    {module : QualifiedName}
    {f g : Fragment}
    (hBuilt : f.Rebuilt g) :
    Rebuilt (.package module f) (.package module g)

variable {unit other : SourceUnit}

/- Rebuilt units are written from rebuilt trees. -/
theorem Rebuilt.tree (hBuilt : unit.Rebuilt other) :
    unit.tree.Rebuilt other.tree := by
  cases hBuilt with
  | classifier hBuilt =>
      exact hBuilt
  | package hBuilt =>
      exact hBuilt

/- Rebuilt units have the same name in a report. -/
theorem Rebuilt.name (hBuilt : unit.Rebuilt other) :
    unit.name e = other.name e := by
  cases hBuilt with
  | classifier hBuilt =>
      exact hBuilt.unitName
  | package hBuilt =>
      rfl

/- Rebuilt units are of one kind. -/
theorem Rebuilt.kind (hBuilt : unit.Rebuilt other) :
    unit.kind = other.kind := by
  cases hBuilt <;> rfl

/- Rebuilt units have the same path. -/
theorem Rebuilt.relative? (hBuilt : unit.Rebuilt other) :
    unit.relative? e = other.relative? e := by
  cases hBuilt with
  | classifier hBuilt =>
      dsimp only [SourceUnit.relative?]
      rw [hBuilt.kind, hBuilt.qualifiedName]
  | package hBuilt =>
      rfl

end SourceUnit

end Palimpsest
