import Palimpsest.Proofs.Output.Template
import Palimpsest.Proofs.Output.Undisturbed

/-
  What the report of a pass says of the tree.

  A pass reports on every unit that is reached: on each root,
  and on the package file and the children of each module that
  has a name and whose directory is there after its own step.
  Each unit promises a true report and relies on not being
  disturbed, and units with other files disturb nothing.  So
  in whatever order the units take their turns, what is
  reported of each of them is true of the trees before and
  after the pass.

  Main declarations:
    * `Task.Truthful`
    * `Task.accountContract`
    * `Task.isMetBy_accountContract`
    * `Fragment.reachedList`
    * `Fragment.HasTruthfulReports`
    * `Fragment.truthful_reached`
    * `Emitter.reports_truthful`
-/

namespace Palimpsest

------------------------------------------------------------
-- What Reports Tell
------------------------------------------------------------

namespace Task

/-
  What is told of a template: it was written exactly if there
  was nothing at its place before, and then its file holds its
  source; otherwise its place is as it was.
-/
def TemplateIsTold
    (e : Emitter)
    (t u : FileTree)
    (i : Info)
    (s : String)
    (destination : Option FilePath)
    (summary : Summary) : Prop :=
  ∃ name,
    i.qualifiedName = some name ∧
      destination = some (e.destination (e.filePath name)) ∧
      (summary.written = true ↔
        t.at? (e.destination (e.filePath name)).place =
          none) ∧
      (summary.written = true →
        u.Holds (e.destination (e.filePath name)) s) ∧
      (summary.written = false →
        u.at? (e.destination (e.filePath name)).place =
          t.at? (e.destination (e.filePath name)).place) ∧
      summary = Emitter.templateSummary s summary.written

/-
  A report on a task that is true of the trees before and
  after a pass.
-/
def Truthful
    (e : Emitter)
    (t u : FileTree) : Task → UnitReport → Prop
| .directory module name, r =>
    r.name = module.unitName ∧ r.kind = .module ∧
      r.destination = some (e.destination name.dirPath) ∧
      (r.IsSuccess ↔
        u.IsDirectory (e.destination name.dirPath))
| .source unit, r =>
    r.name = unit.name e ∧ r.kind = unit.kind ∧
      ∀ summary, r.outcome = .ok summary →
        SourceUnit.IsTold e t u unit r.destination summary
| .template i s, r =>
    r.name = (Fragment.template i s).unitName ∧
      r.kind = .template ∧
      ∀ summary, r.outcome = .ok summary →
        TemplateIsTold e t u i s r.destination summary
| .refused name kind fault, r =>
    r = UnitReport.failed name kind (.fragment fault)

variable {e : Emitter} {t u v w : FileTree}

------------------------------------------------------------
-- What Units Promise
------------------------------------------------------------

/-
  What is foreseen of a module: it succeeds exactly if its
  directory can be made in the first tree.
-/
def IsForeseen
    (e : Emitter)
    (t : FileTree) : Task → UnitReport → Prop
| .directory _ name, r =>
    r.IsSuccess ↔
      (t.ensureDir (e.destination name.dirPath)).1 = .ok ()
| _, _ => True

/-
  A unit relies on not being disturbed, and it promises a true
  report.
-/
def accountContract
    (e : Emitter)
    (t : FileTree)
    (task : Task) : Contract where
  allows := task.Takes e
  relies := task.Undisturbed e
  promises := fun r u =>
    task.Truthful e t u r ∧ task.IsForeseen e t r
  refl := .refl e task
  trans := fun _ _ _ => .trans

/- A report is one of success if the directory was made. -/
theorem isSuccess_made_iff
    {name : String}
    {kind : UnitKind}
    {destination : Option FilePath}
    {answer : Except FileFault Unit}
    {fault : FileFault → UnitError}
    {summary : Summary} :
    UnitReport.IsSuccess
        ⟨name, kind, destination,
          (answer.mapError fault).map (fun _ => summary)⟩ ↔
      answer = .ok () := by
  cases answer <;>
    simp [Except.mapError, Except.map, UnitReport.IsSuccess,
      UnitReport.summary?]

/- A module reports on the directory that it makes. -/
theorem fulfilled_account_directory
    {module : Fragment}
    {name : QualifiedName}
    (hRegular : e.IsRegular)
    (hName : name.IsParsed)
    (hRooted : t.IsRooted) :
    ((directory module name).chain e).Fulfils
      ((directory module name).accountContract e t).relies
      ((directory module name).accountContract e t).promises
      t := by
  apply Chain.fulfils_map
  refine .step (a := .ensureDir _) rfl ?_
  intro u hBefore
  refine .done (fun v hAfter => ?_)
  have hForeseen :=
    hBefore.ensureDir_iff hRegular hName hRooted
  have hThere := hAfter.isDirectory_iff hRegular hName
    (hBefore.rooted hRooted)
  dsimp only [accountContract, Truthful, IsForeseen,
    Action.perform]
  rw [isSuccess_made_iff, hThere, hForeseen]
  exact ⟨⟨rfl, rfl, rfl, .rfl⟩, .rfl⟩

/- A unit that has failed tells nothing that can be wrong. -/
theorem promises_of_fault_source
    {unit : SourceUnit}
    {destination : Option FilePath}
    (fault : UnitError)
    (u : FileTree) :
    ((source unit).accountContract e t).promises
      ⟨unit.name e, unit.kind, destination, .error fault⟩ u :=
  ⟨⟨rfl, rfl, fun _ hOk => by cases hOk⟩, trivial⟩

theorem promises_of_fault_template
    {i : Info}
    {s : String}
    {destination : Option FilePath}
    (fault : UnitError)
    (u : FileTree) :
    ((template i s).accountContract e t).promises
      ⟨(Fragment.template i s).unitName, .template, destination,
        .error fault⟩ u :=
  ⟨⟨rfl, rfl, fun _ hOk => by cases hOk⟩, trivial⟩

/- A unit that is read back reports on what it writes. -/
theorem fulfilled_account_source
    {unit : SourceUnit}
    (hRegular : e.IsRegular)
    (hName : (source unit).HasParsedName)
    (hRooted : t.IsRooted) :
    ((source unit).chain e).Fulfils
      ((source unit).accountContract e t).relies
      ((source unit).accountContract e t).promises t := by
  dsimp only [chain]
  rcases unit.chain_cases e with
    ⟨relative, hFile, hChain⟩ | ⟨fault, hChain⟩
  · have hPath : relative.IsUnitFile :=
      isUnitFile_of_file? hRegular hName hFile
    rw [hChain]
    apply Chain.fulfils_map
    apply Emitter.fulfils_roundTrip promises_of_fault_source
    intro u v w previous p hBefore hRead hPrepare hHolds
      hAfter
    refine ⟨⟨rfl, rfl, fun summary hOk => ?_⟩, trivial⟩
    cases hOk
    have hFirst := hBefore.readIfExists hRegular hName hRooted
      hFile hRead
    have hLast := hAfter.holds (.write hFile hPrepare) rfl
      (hPath.join hRegular.root).1 hHolds
    exact ⟨relative, previous, p.tree, p.summary, hFile, rfl,
      hFirst, Emitter.prepare_eq_ok_iff.mp hPrepare, hLast,
      rfl⟩
  · rw [hChain]
    exact .done (fun u _ => promises_of_fault_source fault u)

/- A template that was created or left is told of as it is. -/
theorem templateIsTold_of_create
    {i : Info}
    {s : String}
    {name : QualifiedName}
    {created : Bool}
    (hRegular : e.IsRegular)
    (hName : (template i s).HasParsedName)
    (hStored : i.qualifiedName = some name)
    (hBefore :
      v.at? (e.destination (e.filePath name)).place =
        t.at? (e.destination (e.filePath name)).place)
    (hCreate :
      v.create (e.destination (e.filePath name)) s =
        (.ok created, w))
    (hAfter : (template i s).Undisturbed e w u) :
    TemplateIsTold e t u i s
      (some (e.destination (e.filePath name)))
      (Emitter.templateSummary s created) := by
  have hFile :
      (template i s).file? e = some (e.filePath name) :=
    congrArg (Option.map e.filePath) hStored
  have hPath := isUnitFile_of_file? hRegular hName hFile
  have hForward :
      (e.destination (e.filePath name)).IsForward :=
    (hPath.join hRegular.root).1
  rcases FileTree.created_of_create hForward hCreate with
    ⟨hNew, hHolds, hLeft⟩
  rw [hBefore] at hNew
  refine ⟨name, hStored, rfl, hNew, ?_, ?_, rfl⟩
  · intro hCreated
    exact hAfter.holds (.create hFile) rfl hForward
      (hHolds hCreated)
  · intro hOld
    rw [hAfter.at?_template hFile, hLeft hOld, hBefore]

/- A template reports whether it was created. -/
theorem fulfilled_account_template
    {i : Info}
    {s : String}
    (hRegular : e.IsRegular)
    (hName : (template i s).HasParsedName) :
    ((template i s).chain e).Fulfils
      ((template i s).accountContract e t).relies
      ((template i s).accountContract e t).promises t := by
  dsimp only [chain]
  rcases e.templateChain_cases i s with
    ⟨name, hStored, hChain⟩ | ⟨fault, hChain⟩
  · have hFile :
        (template i s).file? e = some (e.filePath name) :=
      congrArg (Option.map e.filePath) hStored
    have hPath := isUnitFile_of_file? hRegular hName hFile
    have hStable : ∀ u v : FileTree,
        u.at? (e.destination (e.filePath name)).place =
            t.at? (e.destination (e.filePath name)).place →
          (template i s).Undisturbed e u v →
            v.at? (e.destination (e.filePath name)).place =
              t.at? (e.destination (e.filePath name)).place :=
      fun u v hSame hBetween =>
        (hBetween.at?_template hFile).trans hSame
    rw [hChain, show e.render (.template i s) = s from
      Fragment.render_template _ _ i s]
    apply Chain.fulfils_map
    refine Chain.fulfils_insideParent _ hStable ?_
      promises_of_fault_template ?_ rfl
    · intro parent u hParent hSame
      exact (FileTree.at?_ensureDir_parent
        (hPath.join hRegular.root).1
        (FilePath.endsInName_join hPath.not_isIdle _)
        hParent u).trans hSame
    · intro u hSame
      refine .step (a := .create _ _) rfl ?_
      intro v hBefore
      dsimp only [Action.perform]
      cases hCreate : v.create _ s with
      | mk answer w =>
          cases answer with
          | error fault =>
              exact .done
                (fun x _ => promises_of_fault_template _ x)
          | ok created =>
              refine .done (fun x hAfter =>
                ⟨⟨rfl, rfl, fun summary hOk => ?_⟩, trivial⟩)
              cases hOk
              exact templateIsTold_of_create hRegular hName
                hStored (hStable u v hSame hBefore) hCreate
                hAfter
  · rw [hChain]
    exact .done
      (fun u _ => promises_of_fault_template _ u)

/- Every unit meets its contract. -/
theorem isMetBy_accountContract
    {task : Task}
    (hRegular : e.IsRegular)
    (hName : task.HasParsedName)
    (hRooted : t.IsRooted) :
    (task.accountContract e t).IsMetBy t (task.chain e) := by
  refine ⟨fun _ => takes_of_can, ?_⟩
  cases task with
  | directory module name =>
      exact fulfilled_account_directory hRegular
        (hName name rfl) hRooted
  | source unit =>
      exact fulfilled_account_source hRegular hName hRooted
  | template i s =>
      exact fulfilled_account_template hRegular hName
  | refused name kind fault =>
      exact .done (fun u _ => ⟨rfl, trivial⟩)

end Task

------------------------------------------------------------
-- Units That Are Reached
------------------------------------------------------------

/- The job that is one task. -/
def Task.job
    (e : Emitter)
    (task : Task) : Job :=
  .single (task.chain e)

namespace Fragment

mutual

/-
  The tasks for a fragment that are reached when its turn
  comes, a module before its package file and that before its
  children.  Nothing in a module is reached unless it has a
  name and its directory is there after its own step.
-/
def reached (e : Emitter) : Fragment → FileTree → List Task
| .module i p cs, t =>
    match i.qualifiedName with
    | none =>
        [.refused i.name .module (.missingQualifiedName i.name)]
    | some name =>
        let directory := e.destination name.dirPath
        let made := (t.ensureDir directory).2
        let packages := p.toList.map
          (fun package => Task.source (.package name package))
        .directory (.module i p cs) name ::
          (if made.IsDirectory directory then
            packages ++
              reachedList e cs
                (Job.runList (packages.map (Task.job e)) made).2
          else
            [])
| f, _ => f.tasks

/- The tasks for fragments that are reached, in order. -/
def reachedList
    (e : Emitter) : List Fragment → FileTree → List Task
| [], _ => []
| f :: fs, t =>
    reached e f t ++ reachedList e fs ((e.job f).run t).2

end

end Fragment

------------------------------------------------------------
-- Reports In The Order Of The Tree
------------------------------------------------------------

namespace Emitter

variable {e : Emitter} {tasks : List Task} {jobs : List Job}
variable {name : QualifiedName} {t u v w : FileTree}

/- The directories of modules are left undisturbed. -/
def LeavesModules
    (e : Emitter)
    (t u : FileTree) : Prop :=
  ∀ module name,
    name.IsParsed →
      (Task.directory module name).Undisturbed e t u

theorem LeavesModules.refl
    (e : Emitter)
    (t : FileTree) :
    e.LeavesModules t t :=
  fun module name _ => .refl e (.directory module name) t

theorem LeavesModules.trans
    (hFirst : e.LeavesModules t u)
    (hSecond : e.LeavesModules u v) :
    e.LeavesModules t v :=
  fun module name hName =>
    (hFirst module name hName).trans
      (hSecond module name hName)

/- No unit has its file where a module has its directory. -/
theorem leavesModules_perform
    {task : Task}
    {a : Action}
    (hTakes : task.Takes e a)
    (hRegular : e.IsRegular)
    (hRoots : e.HasSeparateRoots)
    (hName : task.HasParsedName)
    (t : FileTree) :
    e.LeavesModules t (a.perform t).2 := by
  intro module name hModule
  have hOwn : (Task.directory module name).HasParsedName := by
    intro other hOther
    cases hOther
    exact hModule
  exact hTakes.undisturbed hRegular hRoots hOwn hName
    (fun relative hFile => by cases hFile) t

theorem leavesModules_runList
    (hRegular : e.IsRegular)
    (hRoots : e.HasSeparateRoots)
    (hNames : ∀ task ∈ tasks, task.HasParsedName)
    (hChains : Job.chainsList jobs = tasks.map (Task.chain e))
    (t : FileTree) :
    e.LeavesModules t (Job.runList jobs t).2 := by
  apply Job.keeps_runList (LeavesModules.refl e)
    (fun _ _ _ => LeavesModules.trans)
  rw [hChains, List.forall_mem_map]
  intro task hTask a hCan v
  exact leavesModules_perform (Task.takes_of_can hCan)
    hRegular hRoots (hNames task hTask) v

theorem leavesModules_job
    {f : Fragment}
    (hRegular : e.IsRegular)
    (hRoots : e.HasSeparateRoots)
    (hNames : ∀ task ∈ f.tasks, task.HasParsedName)
    (t : FileTree) :
    e.LeavesModules t ((e.job f).run t).2 := by
  have hChains :
      Job.chainsList [e.job f] = f.tasks.map (Task.chain e) := by
    rw [Job.chainsList, Job.chainsList, List.append_nil,
      e.chains_job]
  have hLeaves :=
    leavesModules_runList hRegular hRoots hNames hChains t
  rw [Job.runList_singleton] at hLeaves
  exact hLeaves

/- So a module is entered at its turn if it was foreseen. -/
theorem LeavesModules.isDirectory_made_iff
    (hLeaves : e.LeavesModules t w)
    (module : Fragment)
    (hRegular : e.IsRegular)
    (hName : name.IsParsed)
    (hRooted : t.IsRooted) :
    (w.ensureDir (e.destination name.dirPath)).2.IsDirectory
        (e.destination name.dirPath) ↔
      (t.ensureDir (e.destination name.dirPath)).1 =
        .ok () := by
  have hBefore := hLeaves module name hName
  have hMade := Task.Undisturbed.isDirectory_iff
    (.refl e (.directory module name) _) hRegular hName
    (hBefore.rooted hRooted)
  exact hMade.trans
    (hBefore.ensureDir_iff hRegular hName hRooted)

end Emitter

/- If a unit is done, its report is as it has promised. -/
def Task.KeepsPromise
    (e : Emitter)
    (t u : FileTree)
    (task : Task)
    (c : Chain UnitReport) : Prop :=
  ∀ report,
    c = .done report →
      task.Truthful e t u report ∧ task.IsForeseen e t report

namespace Fragment

variable {e : Emitter} {f : Fragment} {units : List Fragment}
variable {i : Info} {p : Option Fragment} {cs : List Fragment}
variable {task : Task} {tasks : List Task}
variable {job : Job} {jobs : List Job}
variable {reports : List UnitReport} {t u w : FileTree}

/- A unit without followers only reports on itself. -/
theorem truthful_single
    (hShape : job.shape = .mk [])
    (hKept :
      List.Forall₂ (Task.KeepsPromise e t u) [task] job.chains)
    (hDone : job.outcome? = some reports) :
    List.Forall₂ (Task.Truthful e t u) [task] reports := by
  cases job with
  | mk unit followers =>
      cases followers with
      | nil =>
          rcases Job.outcome?_single_iff.mp hDone with
            ⟨report, rfl, rfl⟩
          rcases List.forall₂_cons.mp hKept with ⟨hHere, _⟩
          exact .cons (hHere report rfl).1 .nil
      | cons follower followers =>
          cases hShape

theorem truthful_singles
    (hShapes : Job.shapes jobs = tasks.map (fun _ => .mk []))
    (hKept :
      List.Forall₂ (Task.KeepsPromise e t u) tasks
        (Job.chainsList jobs))
    (hDone : Job.outcomes? jobs = some reports) :
    List.Forall₂ (Task.Truthful e t u) tasks reports := by
  induction tasks generalizing jobs reports with
  | nil =>
      cases jobs with
      | nil =>
          cases hDone
          exact .nil
      | cons job jobs =>
          cases hShapes
  | cons task tasks ih =>
      cases jobs with
      | nil =>
          cases hShapes
      | cons job jobs =>
          rcases List.cons.inj hShapes with ⟨hShape, hOthers⟩
          have hLength : [task].length = job.chains.length := by
            rw [Job.length_chains, hShape]
            rfl
          rcases forall₂_of_append hLength hKept with
            ⟨hHere, hRest⟩
          rcases Job.outcomes?_cons_eq_some_iff.mp hDone with
            ⟨first, others, hFirst, hLater, rfl⟩
          exact List.rel_append
            (truthful_single hShape hHere hFirst)
            (ih hOthers hRest hLater)

/-
  Whenever the job for a fragment is done in a pass, its
  reports are true, one for each unit that is reached.  In the
  pass the units may have taken turns in any order; the tree
  at the turn of the fragment only settles which of them are
  reached.
-/
def HasTruthfulReports
    (e : Emitter)
    (t u : FileTree)
    (f : Fragment) : Prop :=
  ∀ (w : FileTree) (job : Job) (reports : List UnitReport),
    e.LeavesModules t w →
      job.shape = (e.job f).shape →
        List.Forall₂ (Task.KeepsPromise e t u) f.tasks
            job.chains →
          job.outcome? = some reports →
            List.Forall₂ (Task.Truthful e t u) (f.reached e w)
              reports

theorem truthful_reachedList_of_mem
    (hRegular : e.IsRegular)
    (hRoots : e.HasSeparateRoots)
    (hUnits : ∀ f ∈ units, f.HasTruthfulReports e t u)
    (hNames : ∀ task ∈ tasksList units, task.HasParsedName)
    (hLeaves : e.LeavesModules t w)
    (hShapes : Job.shapes jobs = Job.shapes (e.jobs units))
    (hKept :
      List.Forall₂ (Task.KeepsPromise e t u)
        (tasksList units) (Job.chainsList jobs))
    (hDone : Job.outcomes? jobs = some reports) :
    List.Forall₂ (Task.Truthful e t u)
      (reachedList e units w) reports := by
  induction units generalizing jobs reports w with
  | nil =>
      cases jobs with
      | nil =>
          cases hDone
          exact .nil
      | cons job jobs =>
          cases hShapes
  | cons f fs ih =>
      cases jobs with
      | nil =>
          cases hShapes
      | cons job jobs =>
          rw [List.forall_mem_cons] at hUnits
          rw [tasksList, List.forall_mem_append] at hNames
          rcases List.cons.inj hShapes with ⟨hShape, hOthers⟩
          have hLength :
              f.tasks.length = job.chains.length := by
            rw [Job.length_chains, hShape,
              ← Job.length_chains, e.chains_job,
              List.length_map]
          rcases forall₂_of_append hLength hKept with
            ⟨hHere, hRest⟩
          rcases Job.outcomes?_cons_eq_some_iff.mp hDone with
            ⟨first, others, hFirst, hLater, rfl⟩
          have hNext := Emitter.leavesModules_job hRegular
            hRoots hNames.1 w
          exact List.rel_append
            (hUnits.1 w job first hLeaves hShape hHere hFirst)
            (ih hUnits.2 hNames.2 (hLeaves.trans hNext)
              hOthers hRest hLater)

/- The package file of a module is written, then the rest. -/
theorem truthful_followers
    {packages : List Task}
    (hRegular : e.IsRegular)
    (hRoots : e.HasSeparateRoots)
    (hChildren : ∀ f ∈ cs, f.HasTruthfulReports e t u)
    (hNames :
      ∀ task ∈ packages ++ tasksList cs, task.HasParsedName)
    (hLeaves : e.LeavesModules t w)
    (hShapes :
      Job.shapes jobs =
        packages.map (fun _ => .mk []) ++
          Job.shapes (e.jobs cs))
    (hKept :
      List.Forall₂ (Task.KeepsPromise e t u)
        (packages ++ tasksList cs) (Job.chainsList jobs))
    (hDone : Job.outcomes? jobs = some reports) :
    List.Forall₂ (Task.Truthful e t u)
      (packages ++
        reachedList e cs
          (Job.runList (packages.map (Task.job e)) w).2)
      reports := by
  rw [List.forall_mem_append] at hNames
  rw [Job.shapes_eq_map] at hShapes
  rcases List.map_eq_append_iff.mp hShapes with
    ⟨front, back, rfl, hFront, hBack⟩
  rw [← Job.shapes_eq_map] at hFront hBack
  rw [Job.chainsList_append] at hKept
  have hLength :
      packages.length = (Job.chainsList front).length := by
    rw [Job.length_chainsList, hFront, Job.Shape.sizes_single]
  rcases forall₂_of_append hLength hKept with
    ⟨hPackages, hOthers⟩
  rcases Job.outcomes?_append_eq_some_iff.mp hDone with
    ⟨first, rest, hFirst, hRest, rfl⟩
  have hNext := Emitter.leavesModules_runList hRegular hRoots
    hNames.1
    (Emitter.chainsList_map_single (Task.chain e) packages) w
  exact List.rel_append
    (truthful_singles hFront hPackages hFirst)
    (truthful_reachedList_of_mem hRegular hRoots hChildren
      hNames.2 (hLeaves.trans hNext) hBack hOthers hRest)

/-
  A module reports on itself first.  Its followers get their
  turn if it succeeds, and they are reached if its directory
  is there; both were foreseen in the first tree.
-/
theorem truthful_module
    {name : QualifiedName}
    (hRegular : e.IsRegular)
    (hRoots : e.HasSeparateRoots)
    (hChildren : ∀ f ∈ cs, f.HasTruthfulReports e t u)
    (hNames : ∀ task ∈ (Fragment.module i p cs).tasks,
      task.HasParsedName)
    (hRooted : t.IsRooted)
    (hName : i.qualifiedName = some name) :
    (Fragment.module i p cs).HasTruthfulReports e t u := by
  intro w job reports hLeaves hShape hKept hDone
  rw [tasks, hName] at hKept hNames
  rw [Emitter.job, hName] at hShape
  rw [reached, hName]
  dsimp only at hKept hNames hShape ⊢
  rw [List.forall_mem_cons] at hNames
  have hEntered := hLeaves.isDirectory_made_iff
    (.module i p cs) hRegular (hNames.1 name rfl) hRooted
  have hMade := Emitter.leavesModules_perform .directory
    hRegular hRoots hNames.1 w
  cases job with
  | mk unit followers =>
      have hShapes :
          Job.shapes followers =
            (p.toList.map (fun package =>
                Task.source (.package name package))).map
                (fun _ => .mk []) ++
              Job.shapes (e.jobs cs) := by
        rw [Job.shape, Job.shape, Job.Shape.mk.injEq] at hShape
        rw [hShape]
        simp only [Job.shapes_eq_map, List.map_append,
          List.map_map]
        rfl
      rcases List.forall₂_cons.mp hKept with
        ⟨hUnit, hFollowers⟩
      rcases Job.outcome?_eq_some_iff.mp hDone with
        ⟨report, rfl, ⟨hSuccess, others, hOthers, rfl⟩ |
          ⟨hFailure, rfl⟩⟩
      · have hHere := hUnit report rfl
        rw [if_pos (hEntered.mpr (hHere.2.mp hSuccess))]
        exact .cons hHere.1
          (truthful_followers hRegular hRoots hChildren
            hNames.2 (hLeaves.trans hMade) hShapes hFollowers
            hOthers)
      · have hHere := hUnit report rfl
        rw [if_neg
          (fun h => hFailure (hHere.2.mpr (hEntered.mp h)))]
        exact .cons hHere.1 .nil

/- The reports of a fragment are true, whatever it is. -/
theorem truthful_reached
    (hRegular : e.IsRegular)
    (hRoots : e.HasSeparateRoots)
    (hNames : ∀ task ∈ f.tasks, task.HasParsedName)
    (hRooted : t.IsRooted)
    (u : FileTree) :
    f.HasTruthfulReports e t u := by
  induction f using Fragment.induct with
  | module i p cs _ ihChildren =>
      cases hName : i.qualifiedName with
      | none =>
          intro w job reports _ hShape hKept hDone
          rw [tasks, hName] at hKept
          rw [Emitter.job, hName] at hShape
          rw [reached, hName]
          exact truthful_single hShape hKept hDone
      | some name =>
          refine truthful_module hRegular hRoots ?_ hNames
            hRooted hName
          intro f hMem
          refine ihChildren f hMem (fun task hTask => ?_)
          apply hNames
          rw [tasks, hName]
          exact List.mem_cons_of_mem _
            (List.mem_append_right _ (mem_tasksList hMem hTask))
  | classifier i h m d ms x _ _ _ =>
      intro w job reports _ hShape hKept hDone
      exact truthful_single hShape hKept hDone
  | group i cs _ =>
      intro w job reports _ hShape hKept hDone
      exact truthful_single hShape hKept hDone
  | method i s a b =>
      intro w job reports _ hShape hKept hDone
      exact truthful_single hShape hKept hDone
  | simple i s =>
      intro w job reports _ hShape hKept hDone
      exact truthful_single hShape hKept hDone
  | template i s =>
      intro w job reports _ hShape hKept hDone
      exact truthful_single hShape hKept hDone

end Fragment

------------------------------------------------------------
-- Reports Of A Pass
------------------------------------------------------------

namespace Emitter

variable {e : Emitter} {units : List Fragment}
variable {t u : FileTree} {report : Report}

/- Units with different files are bound by their contracts. -/
theorem areBound_account
    (hRegular : e.IsRegular)
    (hRoots : e.HasSeparateRoots)
    (hNames :
      ∀ name ∈ Fragment.taskNames units, name.IsParsed)
    (hFiles : (Fragment.taskFiles e units).Nodup)
    (hRooted : t.IsRooted) :
    Task.AreBound (Task.accountContract e t) e units t := by
  constructor
  · unfold Contract.AreTolerant
    rw [List.pairwise_map]
    apply (pairwise_files hFiles).imp_of_mem
    intro task other hTask hOther hDiffers
    have hName := isParsed_of_mem hNames hTask
    have hOtherName := isParsed_of_mem hNames hOther
    exact ⟨fun a hTakes => hTakes.undisturbed hRegular hRoots
        hName hOtherName hDiffers,
      fun a hTakes => hTakes.undisturbed hRegular hRoots
        hOtherName hName hDiffers.symm⟩
  · intro task hTask
    exact Task.isMetBy_accountContract hRegular
      (isParsed_of_mem hNames hTask) hRooted

/-
  The report of a pass tells the truth, in whatever order the
  units take their turns; one after another is one such order.
  It has one entry for each unit that is reached and no other,
  in the order of the tree: a module, its package file, its
  children.  Each entry has the name and the kind of its unit,
  and what it tells of the file or the directory of the unit
  is so before and after the pass.
-/
theorem reports_truthful
    (hRegular : e.IsRegular)
    (hRoots : e.HasSeparateRoots)
    (hNames :
      ∀ name ∈ Fragment.taskNames units, name.IsParsed)
    (hFiles : (Fragment.taskFiles e units).Nodup)
    (hRooted : t.IsRooted) :
    e.Passes units t (e.emitAll units t).1
        (e.emitAll units t).2 ∧
      ∀ report u, e.Passes units t report u →
        List.Forall₂ (Task.Truthful e t u)
          (Fragment.reachedList e units t) report.units := by
  refine ⟨e.passes_emitAll units t, fun report u hRun => ?_⟩
  rcases hRun with ⟨done, hSteps, hDone⟩
  have hParsed : ∀ task ∈ Fragment.tasksList units,
      task.HasParsedName :=
    fun task hTask => isParsed_of_mem hNames hTask
  have hMet := (areBound_account hRegular hRoots hNames hFiles
    hRooted).isMetBy_of_steps hSteps
  apply Fragment.truthful_reachedList_of_mem hRegular hRoots
    _ hParsed (.refl e t) (Job.shapes_of_steps hSteps) _ hDone
  · intro f hMem
    exact Fragment.truthful_reached hRegular hRoots
      (fun task hTask =>
        hParsed task (Fragment.mem_tasksList hMem hTask))
      hRooted u
  · apply hMet.imp
    rintro task _ hHere report rfl
    exact hHere.promise

/- A file that is made from a template. -/
def plainTemplate (name : String) : Fragment :=
  .template
    { Info.new ⟨0⟩ name .other with
      qualifiedName := some ⟨["lib", name]⟩ }
    "notes"

/- A class with a section for its body. -/
def bodyClass (name : String) : Fragment :=
  .classifier
    { Info.new ⟨0⟩ name .classifier with
      qualifiedName := some ⟨[name]⟩ }
    none none "class" []
    (some (Section.empty ⟨"body", by decide⟩))

/-
  A module with a package file, a template that is there
  already and a new one; a module with a file in its place and
  a class in it; and beside them a class whose previous file
  has code in its section.
-/
def accountUnits : List Fragment :=
  [.module
      { Info.new ⟨0⟩ "lib" .module with
        qualifiedName := some ⟨["lib"]⟩ }
      (some (plainClass "package-info"))
      [plainTemplate "Old", plainTemplate "New"],
    .module
      { Info.new ⟨0⟩ "bin" .module with
        qualifiedName := some ⟨["bin"]⟩ }
      none [plainClass "C"],
    bodyClass "A"]

/- The file in place of a module, and two previous files. -/
def accountFiles : FileTree :=
  (((((FileTree.empty.ensureDir ⟨"src/lib"⟩).2.write
      ⟨"src/bin"⟩ "").2).write ⟨"src/lib/Old.java"⟩
      "old").2.write ⟨"src/A.java"⟩
      ("// ----------- << body >>\nint a;\n" ++
        "// ----------- >>")).2

/-
  The class in the module that is stopped is not reported.
  The code in the section is reported as grafted, and it is in
  the new file.
-/
theorem reports_truthful_sample :
    ∃ report u,
      siblingEmitter.emitAll accountUnits accountFiles =
          (report, u) ∧
        List.Forall₂
          (Task.Truthful siblingEmitter accountFiles u)
          (Fragment.reachedList siblingEmitter accountUnits
            accountFiles)
          report.units ∧
        report.units.map
            (fun r => (r.name, r.summary?.map
              (fun s => (s.written, s.grafted)))) =
          [("lib", some (true, [])),
            ("lib.package-info", some (true, [])),
            ("lib.Old", some (false, [])),
            ("lib.New", some (true, [])),
            ("bin", none),
            ("A", some (true, [⟨"body", by decide⟩]))] ∧
        u.readIfExists ⟨"src/A.java"⟩ =
          .ok (some
            ("class \x7b\n// ----------- << body >>\nint a;\n" ++
              "// ----------- >>\n\x7d")) := by
  have hRegular : siblingEmitter.IsRegular :=
    ⟨by decide +kernel, by decide +kernel, by decide,
      by decide +kernel, by decide +kernel⟩
  have hNames :
      ∀ name ∈ Fragment.taskNames accountUnits,
        name.IsParsed := by
    have hAll :
        Fragment.taskNames accountUnits =
          [⟨["lib"]⟩, ⟨["lib"]⟩, ⟨["lib", "Old"]⟩,
            ⟨["lib", "New"]⟩, ⟨["bin"]⟩, ⟨["C"]⟩,
            ⟨["A"]⟩] :=
      rfl
    rw [hAll]
    simp only [List.forall_mem_cons]
    exact ⟨⟨"lib", by decide +kernel⟩,
      ⟨"lib", by decide +kernel⟩,
      ⟨"lib.Old", by decide +kernel⟩,
      ⟨"lib.New", by decide +kernel⟩,
      ⟨"bin", by decide +kernel⟩,
      ⟨"C", by decide +kernel⟩, ⟨"A", by decide +kernel⟩,
      by simp⟩
  have hFiles :
      (Fragment.taskFiles siblingEmitter accountUnits).Nodup :=
    by decide +kernel
  have hRooted : accountFiles.IsRooted :=
    (((FileTree.isRooted_empty.ensureDir _).write _ _).write
      _ _).write _ _
  have hOutcomes :
      (siblingEmitter.emitAll accountUnits
          accountFiles).1.units.map
            (fun r => (r.name, r.summary?.map
              (fun s => (s.written, s.grafted)))) =
          [("lib", some (true, [])),
            ("lib.package-info", some (true, [])),
            ("lib.Old", some (false, [])),
            ("lib.New", some (true, [])),
            ("bin", none),
            ("A", some (true, [⟨"body", by decide⟩]))] ∧
        (siblingEmitter.emitAll accountUnits
          accountFiles).2.readIfExists ⟨"src/A.java"⟩ =
          .ok (some
            ("class \x7b\n// ----------- << body >>\nint a;\n" ++
              "// ----------- >>\n\x7d")) := by
    decide +kernel
  have hTruthful := reports_truthful hRegular (fun _ => rfl)
    hNames hFiles hRooted
  cases hRun :
      siblingEmitter.emitAll accountUnits accountFiles with
  | mk report u =>
      rw [hRun] at hOutcomes hTruthful
      exact ⟨report, u, rfl,
        hTruthful.2 report u hTruthful.1, hOutcomes⟩

end Emitter

end Palimpsest
