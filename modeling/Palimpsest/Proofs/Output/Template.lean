import Palimpsest.Proofs.Output.Contract
import Palimpsest.Proofs.Output.Failure
import Palimpsest.Proofs.Text.Parts

/-
  What becomes of the files that templates are written to.

  A template that is a unit of its own is written where
  nothing is, and it leaves every file in the tree as it is.
  A template in the place of a package fragment is written as
  package fragments are: if that succeeds, the file holds the
  source of the template, whatever it held before.  Over any
  number of passes, whose units take turns in any order, a
  file keeps its bytes unless a class or a package is written
  to it.

  Main declarations:
    * `Fragment.render_template`
    * `FileTree.SparesFiles`
    * `Task.templateSource?`
    * `Task.Takes.sparesFiles`
    * `Pass.Runs`
    * `Task.template_spares_file`
-/

namespace Palimpsest

------------------------------------------------------------
-- The Text Of A Template
------------------------------------------------------------

/- A template is written as its source, in either style. -/
theorem Fragment.render_template
    (unit : String)
    (style : SectionStyle)
    (i : Info)
    (s : String) :
    (Fragment.template i s).render unit style = s := by
  rw [render_eq_unlines, items, sourceItems]
  by_cases hSource : s = ""
  · rw [if_pos hSource, hSource]
    rfl
  · have hLines :
        ((Text.lines s).map Item.source).flatMap
            (Item.entries style unit) =
          Text.lines s := by
      rw [List.flatMap_map]
      exact List.flatMap_singleton' _
    rw [if_neg hSource, hLines]
    exact Text.joinWith_splitAt (by decide) s

------------------------------------------------------------
-- Files That Are Spared
------------------------------------------------------------

namespace FileTree

variable {t u v : FileTree}

/- All files of the first tree are left as they are. -/
def SparesFiles (t u : FileTree) : Prop :=
  ∀ (place : Location) (content : ByteArray),
    t.at? place = some (.file content) →
      u.at? place = some (.file content)

theorem SparesFiles.refl (t : FileTree) : t.SparesFiles t :=
  fun _ _ hFile => hFile

theorem SparesFiles.trans
    (hFirst : t.SparesFiles u)
    (hSecond : u.SparesFiles v) :
    t.SparesFiles v :=
  fun place content hFile =>
    hSecond place content (hFirst place content hFile)

theorem KeepsFiles.sparesFiles
    (hKeeps : t.KeepsFiles u) :
    t.SparesFiles u :=
  fun place content => (hKeeps place content).mpr

theorem sparesFiles_ensureDir
    (path : FilePath)
    (t : FileTree) :
    t.SparesFiles (t.ensureDir path).2 :=
  (addsDirectories_ensureDir path t).keepsFiles.sparesFiles

/- A file is only created where nothing is. -/
theorem sparesFiles_create
    (t : FileTree)
    (path : FilePath)
    (text : String) :
    t.SparesFiles (t.create path text).2 := by
  rcases create_cases t path text with
    hSame | ⟨place, _, hNone, hCreate⟩
  · rw [hSame]
    exact .refl t
  · have hFree : t.at? place ≠ some .directory := by
      rw [hNone]
      simp
    intro other content hFile
    have hNe : other ≠ place := by
      rintro rfl
      rw [hNone] at hFile
      cases hFile
    rw [hCreate, at?_put (not_isUpward hFree), if_neg hNe]
    exact hFile

/- A file elsewhere than where a path leads is spared. -/
theorem at?_write_of_locate_ne
    {path : FilePath}
    {place : Location}
    (hElsewhere : t.locateTrimmed path ≠ .ok place)
    (text : String) :
    (t.write path text).2.at? place = t.at? place := by
  cases hWrite : t.write path text with
  | mk answer u =>
      cases answer with
      | error fault =>
          rw [eq_of_write_eq_error hWrite]
      | ok _ =>
          rcases write_eq_ok_iff.mp hWrite with
            ⟨other, hLocate, _, hNode, rfl⟩
          have hNe : place ≠ other := by
            rintro rfl
            exact hElsewhere hLocate
          rw [at?_put (not_isUpward hNode), if_neg hNe]

end FileTree

------------------------------------------------------------
-- Templates As Units
------------------------------------------------------------

namespace Task

variable {e : Emitter} {task : Task} {a : Action}
variable {t u : FileTree} {report : UnitReport}

/- The source of a template, as a unit or as a package. -/
def templateSource? : Task → Option String
| .template _ s => some s
| .source (.package _ (.template _ s)) => some s
| _ => none

theorem exists_of_templateSource?
    {source : String}
    (hTemplate : task.templateSource? = some source) :
    (∃ i, task = .template i source) ∨
      ∃ module i,
        task = .source (.package module (.template i source)) := by
  unfold templateSource? at hTemplate
  split at hTemplate
  · cases hTemplate
    exact .inl ⟨_, rfl⟩
  · cases hTemplate
    exact .inr ⟨_, _, rfl⟩
  · cases hTemplate

/- A unit that is written only if its file is not there. -/
def IsWrittenOnce : Task → Prop
| .template _ _ => True
| _ => False

/- A template as a unit only makes and creates. -/
theorem Takes.sparesFiles
    (hTakes : task.Takes e a)
    (hOnce : task.IsWrittenOnce)
    (t : FileTree) :
    t.SparesFiles (a.perform t).2 := by
  cases hTakes with
  | directory =>
      cases hOnce
  | parent _ _ _ =>
      exact t.sparesFiles_ensureDir _
  | read _ =>
      cases hOnce
  | write _ _ =>
      cases hOnce
  | create _ =>
      exact t.sparesFiles_create _ _

/- So it leaves every file as it is. -/
theorem sparesFiles_run
    (hOnce : task.IsWrittenOnce)
    (e : Emitter)
    (t : FileTree) :
    t.SparesFiles ((task.chain e).run t).2 :=
  Chain.run_keeps FileTree.SparesFiles.refl
    (fun _ _ _ => FileTree.SparesFiles.trans)
    (fun _ hCan => (takes_of_can hCan).sparesFiles hOnce) t

end Task

------------------------------------------------------------
-- Templates As Package Fragments
------------------------------------------------------------

namespace SourceUnit

variable {e : Emitter} {module : QualifiedName} {i : Info}
variable {s : String} {t : FileTree}

/- A template that is a package fragment is written out. -/
theorem holds_of_package_template
    (hSuccess :
      (((package module (.template i s)).chain e).run
        t).1.IsSuccess) :
    (((package module (.template i s)).chain e).run t).2.Holds
      (e.destination (e.packageFilePath module)) s := by
  rcases UnitReport.exists_outcome_of_isSuccess hSuccess with
    ⟨summary, hOk⟩
  rcases isTold_of_success rfl hOk with
    ⟨relative, previous, grafted, taken, hPath, _, _, hTakes,
      hHolds, _⟩
  have hSame : e.packageFilePath module = relative :=
    Option.some.inj hPath
  rcases hTakes.exists_recovered with
    ⟨recovered, _, hTree⟩
  have hText : e.render grafted = s := by
    unfold Emitter.render
    rw [hTree, tree, Fragment.mapSections,
      Fragment.render_template]
  rw [hText] at hHolds
  exact hSame ▸ hHolds

/- A unit that fails leaves every file as it is. -/
theorem sparesFiles_of_failure
    {unit : SourceUnit}
    (hFailure : ¬ ((unit.chain e).run t).1.IsSuccess) :
    t.SparesFiles ((unit.chain e).run t).2 := by
  cases hOutcome : ((unit.chain e).run t).1.outcome with
  | ok summary =>
      rw [← UnitReport.summary?_eq_some_iff] at hOutcome
      exact absurd (Option.isSome_of_eq_some hOutcome) hFailure
  | error fault =>
      exact (failed_keeps_files rfl hOutcome).1.sparesFiles

/-
  What a package template does to the file that it is written
  to: the bytes stay only if it fails or they are its source.
-/
theorem package_template_spares_iff
    {place : Location}
    {content : ByteArray}
    (hPlace :
      t.locateTrimmed
          (e.destination (e.packageFilePath module)) =
        .ok place)
    (hFile : t.at? place = some (.file content)) :
    (((package module (.template i s)).chain e).run t).2.at?
          place = some (.file content) ↔
      ¬ (((package module (.template i s)).chain e).run
          t).1.IsSuccess ∨
        content = s.toUTF8 := by
  by_cases hSuccess :
      (((package module (.template i s)).chain e).run
        t).1.IsSuccess
  · rcases holds_of_package_template hSuccess with
      ⟨other, hLocate, _, hNode⟩
    have hSame := (Chain.keepsDirectories_run
      ((package module (.template i s)).chain e)
        t).locatePieces hPlace
    unfold FileTree.locateTrimmed at hLocate
    rw [hSame] at hLocate
    cases hLocate
    rw [hNode]
    simp [Node.ofText, hSuccess, eq_comm]
  · simp only [hSuccess, not_false_eq_true, true_or, iff_true]
    exact sparesFiles_of_failure hSuccess place content hFile

end SourceUnit

------------------------------------------------------------
-- Any Number Of Passes
------------------------------------------------------------

/- A generation pass: an emitter and the units it writes. -/
structure Pass where
  emitter : Emitter
  units : List Fragment

namespace Pass

/- Do passes one after another, and so their units. -/
def runAll : List Pass → FileTree → FileTree
| [], t => t
| p :: passes, t =>
    runAll passes (p.emitter.emitAll p.units t).2

/-
  Passes are done one after another, and in each of them the
  units take turns in some order.
-/
inductive Runs : List Pass → FileTree → FileTree → Prop
where
| nil
    {t : FileTree} :
    Runs [] t t
| cons
    {p : Pass}
    {passes : List Pass}
    {report : Report}
    {t u v : FileTree}
    (hFirst : p.emitter.Passes p.units t report u)
    (hRest : Runs passes u v) :
    Runs (p :: passes) t v

theorem runs_runAll
    (passes : List Pass)
    (t : FileTree) :
    Runs passes t (runAll passes t) := by
  induction passes generalizing t with
  | nil =>
      exact .nil
  | cons p passes ih =>
      exact .cons (p.emitter.passes_emitAll p.units t) (ih _)

end Pass

/- No class or package file of a pass is at the place. -/
def Pass.Avoids (p : Pass) (place : Location) : Prop :=
  ∀ unit ∈ Fragment.taskSources p.units,
    ∀ relative ∈ unit.relative? p.emitter,
      ∀ t : FileTree,
        t.locateTrimmed (p.emitter.destination relative) ≠
          .ok place

/- A file that no class or package is written to is spared. -/
theorem Task.Takes.at?_of_avoids
    {e : Emitter}
    {task : Task}
    {a : Action}
    {place : Location}
    {content : ByteArray}
    (hTakes : task.Takes e a)
    (hAvoids : ∀ unit ∈ task.source?,
      ∀ relative ∈ unit.relative? e, ∀ t : FileTree,
        t.locateTrimmed (e.destination relative) ≠ .ok place)
    {t : FileTree}
    (hFile : t.at? place = some (.file content)) :
    (a.perform t).2.at? place = some (.file content) := by
  cases hTakes with
  | directory =>
      exact t.sparesFiles_ensureDir _ place content hFile
  | parent _ _ _ =>
      exact t.sparesFiles_ensureDir _ place content hFile
  | read _ =>
      exact hFile
  | write hPath _ =>
      have hElsewhere := hAvoids _ rfl _ hPath t
      exact (FileTree.at?_write_of_locate_ne hElsewhere
        _).trans hFile
  | create _ =>
      exact t.sparesFiles_create _ _ place content hFile

namespace Pass

variable {place : Location} {content : ByteArray}

/- Any passes spare such a file, whichever units fail. -/
theorem Runs.at?_of_avoids
    {passes : List Pass}
    {t u : FileTree}
    (hRuns : Runs passes t u)
    (hAvoids : ∀ p ∈ passes, p.Avoids place)
    (hFile : t.at? place = some (.file content)) :
    u.at? place = some (.file content) := by
  induction hRuns with
  | nil =>
      exact hFile
  | @cons p _ _ _ _ _ hFirst _ ih =>
      rw [List.forall_mem_cons] at hAvoids
      apply ih hAvoids.2
      refine hFirst.keeps
        (R := fun t u : FileTree =>
          t.at? place = some (.file content) →
            u.at? place = some (.file content))
        (fun _ h => h)
        (fun _ _ _ hOld hNew h => hNew (hOld h)) ?_ hFile
      intro task hTask a hTakes v hHere
      apply hTakes.at?_of_avoids _ hHere
      exact fun unit hUnit => hAvoids.1 unit
        (List.mem_filterMap.mpr ⟨task, hTask, hUnit⟩)

end Pass

------------------------------------------------------------
-- Files Of Templates
------------------------------------------------------------

namespace Task

variable {e : Emitter} {task : Task} {source : String}
variable {relative : FilePath} {place : Location}
variable {t u : FileTree} {report : UnitReport}
variable {content : ByteArray}

/-
  What a template does to the file that it is written to, if
  that is there.  As a unit of its own it leaves this file and
  all others as they are, also when other units act between
  its actions.  As a package fragment it leaves the bytes only
  if it fails or they are its source already.  Later passes,
  whose units take turns in any order, leave the file alone as
  well, unless one of their classes or packages is written to
  it.
-/
theorem template_spares_file
    (hTemplate : task.templateSource? = some source)
    (hPath : task.file? e = some relative)
    (hPlace :
      t.locateTrimmed (e.destination relative) = .ok place)
    (hFile : t.at? place = some (.file content))
    (hRun : (task.chain e).run t = (report, u)) :
    (u.at? place = some (.file content) ↔
        task.IsWrittenOnce ∨ ¬ report.IsSuccess ∨
          content = source.toUTF8) ∧
      (task.IsWrittenOnce →
        t.SparesFiles u ∧
          ∀ a, (task.chain e).Can a →
            ∀ v : FileTree, v.SparesFiles (a.perform v).2) ∧
      ∀ passes : List Pass,
        Pass.Runs passes u (Pass.runAll passes u) ∧
          ∀ v, Pass.Runs passes u v →
            (∀ p ∈ passes, p.Avoids place) →
              u.at? place = some (.file content) →
                v.at? place = some (.file content) := by
  have hPasses : ∀ passes : List Pass,
      Pass.Runs passes u (Pass.runAll passes u) ∧
        ∀ v, Pass.Runs passes u v →
          (∀ p ∈ passes, p.Avoids place) →
            u.at? place = some (.file content) →
              v.at? place = some (.file content) :=
    fun passes => ⟨Pass.runs_runAll passes u,
      fun _ hRuns hAvoids hKept =>
        hRuns.at?_of_avoids hAvoids hKept⟩
  have hTree : ((task.chain e).run t).2 = u :=
    congrArg Prod.snd hRun
  rcases exists_of_templateSource? hTemplate with
    ⟨i, rfl⟩ | ⟨module, i, rfl⟩
  · have hOnce : (Task.template i source).IsWrittenOnce :=
      trivial
    have hSpares := sparesFiles_run hOnce e t
    rw [hTree] at hSpares
    refine ⟨?_, fun _ => ⟨hSpares, ?_⟩, hPasses⟩
    · exact ⟨fun _ => .inl trivial,
        fun _ => hSpares place content hFile⟩
    · exact fun _ hCan =>
        (takes_of_can hCan).sparesFiles hOnce
  · cases hPath
    have hIff := SourceUnit.package_template_spares_iff
      (i := i) (s := source) hPlace hFile
    dsimp only [chain] at hRun
    rw [hRun] at hIff
    refine ⟨?_, fun hOnce => absurd hOnce id, hPasses⟩
    rw [hIff]
    exact ⟨.inr, fun h => h.resolve_left id⟩

/- A template in the place of a package fragment. -/
def packageTemplate : Task :=
  .source (.package ⟨["a"]⟩
    (.template (Info.new ⟨0⟩ "package-info" .other) "new"))

/- The same template as a unit of its own. -/
def unitTemplate : Task :=
  .template
    { Info.new ⟨0⟩ "package-info" .other with
      qualifiedName := some ⟨["a", "package-info"]⟩ } "new"

/- A file that was edited by hand. -/
def editedFiles : FileTree :=
  (((FileTree.empty.put ["src"] .directory).put
    ["src", "a"] .directory).put
      ["src", "a", "package-info.java"]
      (Node.ofText "edited by hand"))

/- The first one overwrites the edited file, the other not. -/
theorem template_spares_file_edited :
    (∃ report u,
      (packageTemplate.chain
          (Emitter.new ⟨"src"⟩ "  " none)).run editedFiles =
          (report, u) ∧
        report.IsSuccess ∧
        u.at? ["src", "a", "package-info.java"] ≠
          some (Node.ofText "edited by hand")) ∧
      ∃ report u,
        (unitTemplate.chain
            (Emitter.new ⟨"src"⟩ "  " none)).run editedFiles =
            (report, u) ∧
          report.IsSuccess ∧ editedFiles.SparesFiles u := by
  have hFile :
      editedFiles.at? ["src", "a", "package-info.java"] =
        some (Node.ofText "edited by hand") := by
    rfl
  have hBytes : "edited by hand".toUTF8 ≠ "new".toUTF8 := by
    intro hEq
    have hText := congrArg String.fromUTF8? hEq
    rw [FileTree.fromUTF8?_toUTF8,
      FileTree.fromUTF8?_toUTF8] at hText
    exact absurd hText (by decide)
  constructor
  · have hSuccess :
        ((packageTemplate.chain
          (Emitter.new ⟨"src"⟩ "  " none)).run
            editedFiles).1.IsSuccess := by
      decide +kernel
    cases hRun : (packageTemplate.chain
        (Emitter.new ⟨"src"⟩ "  " none)).run editedFiles with
    | mk report u =>
        rw [hRun] at hSuccess
        have hSpares := template_spares_file rfl rfl
          (by decide +kernel) hFile hRun
        refine ⟨report, u, rfl, hSuccess, ?_⟩
        intro hKept
        rcases hSpares.1.mp hKept with
          hOnce | hFailure | hSame
        · exact hOnce
        · exact hFailure hSuccess
        · exact hBytes hSame
  · have hSuccess :
        ((unitTemplate.chain
          (Emitter.new ⟨"src"⟩ "  " none)).run
            editedFiles).1.IsSuccess := by
      decide +kernel
    cases hRun : (unitTemplate.chain
        (Emitter.new ⟨"src"⟩ "  " none)).run editedFiles with
    | mk report u =>
        rw [hRun] at hSuccess
        have hSpares := template_spares_file rfl rfl
          (by decide +kernel) hFile hRun
        exact ⟨report, u, rfl, hSuccess,
          (hSpares.2.1 trivial).1⟩

end Task

end Palimpsest
