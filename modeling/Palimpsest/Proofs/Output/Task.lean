import Palimpsest.Proofs.Output.Layout

/-
  The units of a pass, one by one.

  A pass over fragments is a list of tasks: directories of
  modules, files that are read back and written, files that
  are written once, and fragments that are refused.  Each task
  makes directories on the way to its file, reads the previous
  text, and writes, and it does nothing else.

  Main declarations:
    * `Task`
    * `Fragment.tasks`
    * `Task.Differs`
    * `Emitter.chainsList_jobs`
    * `Task.Takes`
    * `Task.takes_of_can`
-/

namespace Palimpsest

------------------------------------------------------------
-- Tasks
------------------------------------------------------------

/-
  A unit of a pass: the directory of a module, a unit that is
  read back, a template, or a fragment that is refused.
-/
inductive Task where
| directory (module : Fragment) (name : QualifiedName)
| source (unit : SourceUnit)
| template (info : Info) (source : String)
| refused
    (name : String)
    (kind : UnitKind)
    (fault : FragmentError)

namespace Task

/- What a task does to the file tree. -/
def chain (e : Emitter) : Task → Chain UnitReport
| .directory module name => e.directoryChain module name
| .source unit => unit.chain e
| .template i s => e.templateChain (.template i s)
| .refused name kind fault =>
    .done (UnitReport.failed name kind (.fragment fault))

/- The qualified name that a task is stored by. -/
def name? : Task → Option QualifiedName
| .directory _ name => some name
| .source (.classifier f) => f.info.qualifiedName
| .source (.package module _) => some module
| .template i _ => i.qualifiedName
| .refused _ _ _ => none

/- The path of the file of a task, below a root. -/
def file? (e : Emitter) : Task → Option FilePath
| .directory _ _ => none
| .source unit => unit.relative? e
| .template i _ => i.qualifiedName.map e.filePath
| .refused _ _ _ => none

/- The name that a task is stored by was read from a text. -/
def HasParsedName (task : Task) : Prop :=
  ∀ name ∈ task.name?, name.IsParsed

/- The second task has another file, or none. -/
def Differs (e : Emitter) (task other : Task) : Prop :=
  ∀ relative ∈ task.file? e, relative ∉ other.file? e

theorem Differs.symm
    {e : Emitter}
    {task other : Task}
    (hDiffers : task.Differs e other) :
    other.Differs e task :=
  fun relative hFile hFileToo =>
    hDiffers relative hFileToo hFile

/- The unit of a task that is read back. -/
def source? : Task → Option SourceUnit
| .source unit => some unit
| _ => none

/- The task that refuses a fragment of another kind. -/
def refuse (f : Fragment) : Task :=
  .refused f.unitName .unsupported
    (.unsupportedOperation .serialize f.kind)

end Task

namespace Fragment

mutual

/- The tasks for a fragment, in order. -/
def tasks : Fragment → List Task
| .module i p cs =>
    match i.qualifiedName with
    | none =>
        [.refused i.name .module (.missingQualifiedName i.name)]
    | some name =>
        .directory (.module i p cs) name ::
          (p.toList.map
              (fun package => .source (.package name package)) ++
            tasksList cs)
| .classifier i h m d ms x =>
    [.source (.classifier (.classifier i h m d ms x))]
| .template i s => [.template i s]
| .group i cs => [.refuse (.group i cs)]
| .method i s a b => [.refuse (.method i s a b)]
| .simple i t => [.refuse (.simple i t)]

/- The tasks for fragments, in order. -/
def tasksList : List Fragment → List Task
| [] => []
| f :: fs => tasks f ++ tasksList fs

end

/- The qualified names that units are stored by. -/
def taskNames (units : List Fragment) : List QualifiedName :=
  (tasksList units).filterMap Task.name?

/- The paths of the files of units, below a root. -/
def taskFiles
    (e : Emitter)
    (units : List Fragment) : List FilePath :=
  (tasksList units).filterMap (Task.file? e)

/- The units that are read back. -/
def taskSources (units : List Fragment) : List SourceUnit :=
  (tasksList units).filterMap Task.source?

theorem mem_tasksList
    {f : Fragment}
    {units : List Fragment}
    {task : Task}
    (hMem : f ∈ units)
    (hTask : task ∈ f.tasks) :
    task ∈ tasksList units := by
  induction units with
  | nil =>
      cases hMem
  | cons g gs ih =>
      rw [tasksList, List.mem_append]
      rcases List.mem_cons.mp hMem with rfl | hLater
      · exact .inl hTask
      · exact .inr (ih hLater)

end Fragment

namespace Emitter

variable (e : Emitter)

/- What holds of each fragment holds of a list of them. -/
theorem chainsList_jobs_of_mem
    {units : List Fragment}
    (hUnits : ∀ f ∈ units,
      (e.job f).chains = f.tasks.map (Task.chain e)) :
    Job.chainsList (e.jobs units) =
      (Fragment.tasksList units).map (Task.chain e) := by
  induction units with
  | nil =>
      rfl
  | cons f fs ih =>
      rw [List.forall_mem_cons] at hUnits
      rw [jobs, Job.chainsList, Fragment.tasksList,
        List.map_append, hUnits.1, ih hUnits.2]

theorem chainsList_map_single
    {α : Type}
    (unit : α → Chain UnitReport)
    (entries : List α) :
    Job.chainsList
        (entries.map (fun entry => .single (unit entry))) =
      entries.map unit := by
  induction entries with
  | nil =>
      rfl
  | cons entry entries ih =>
      rw [List.map_cons, Job.chainsList, ih]
      rfl

/- The units of the job for a fragment are its tasks. -/
theorem chains_job (f : Fragment) :
    (e.job f).chains = f.tasks.map (Task.chain e) := by
  induction f using Fragment.induct with
  | module i p cs ihPackage ihChildren =>
      rw [job, Fragment.tasks]
      cases hName : i.qualifiedName with
      | none =>
          simp only [unnamedModule, Job.single, Job.chains,
            Job.chainsList, Fragment.unitName, Fragment.info,
            hName]
          rfl
      | some name =>
          have hChildren := e.chainsList_jobs_of_mem ihChildren
          have hPackage := chainsList_map_single
            (e.packageChain name) p.toList
          dsimp only
          rw [Job.chains, Job.chainsList_append, hPackage,
            hChildren, List.map_cons, List.map_append,
            List.map_map]
          rfl
  | classifier i h m d ms x _ _ _ =>
      rfl
  | group i cs _ =>
      rfl
  | method i s a b =>
      rfl
  | simple i t =>
      rfl
  | template i s =>
      rfl

theorem chainsList_jobs (units : List Fragment) :
    Job.chainsList (e.jobs units) =
      (Fragment.tasksList units).map (Task.chain e) :=
  e.chainsList_jobs_of_mem (fun f _ => e.chains_job f)

/- What holds of all tasks holds of all units of a pass. -/
theorem forall_mem_chainsList_jobs
    {units : List Fragment}
    {property : Chain UnitReport → Prop}
    (hTasks : ∀ task ∈ Fragment.tasksList units,
      property (task.chain e)) :
    ∀ c ∈ Job.chainsList (e.jobs units), property c := by
  rw [e.chainsList_jobs]
  intro c hMem
  rcases List.mem_map.mp hMem with ⟨task, hTask, rfl⟩
  exact hTasks task hTask

end Emitter

------------------------------------------------------------
-- What Tasks Can Do
------------------------------------------------------------

namespace Chain

variable {α : Type} {path : FilePath} {text : String}
variable {a : Action}

theorem can_readText (hCan : (readText path).Can a) :
    a = .read path :=
  eq_of_can_single (a := .read path) hCan

theorem can_makeDirs (hCan : (makeDirs path).Can a) :
    a = .ensureDir path :=
  eq_of_can_single (a := .ensureDir path) hCan

/- Going on inside the directory of a file makes it first. -/
theorem can_insideParent
    {next : Chain (Except UnitError α)}
    (hCan : (insideParent path next).Can a) :
    (∃ parent,
        path.parent? = some parent ∧ parent.text ≠ "" ∧
          a = .ensureDir parent) ∨
      next.Can a := by
  unfold insideParent at hCan
  cases hPath : path.parent? with
  | none =>
      rw [hPath] at hCan
      exact .inr hCan
  | some parent =>
      rw [hPath] at hCan
      dsimp only at hCan
      by_cases hText : parent.text = ""
      · rw [if_pos hText] at hCan
        exact .inr hCan
      · rw [if_neg hText] at hCan
        rcases can_bind hCan with hMake | ⟨answer, hNext⟩
        · exact .inl ⟨parent, rfl, hText,
            can_makeDirs hMake⟩
        · cases answer with
          | error fault =>
              exact absurd hNext (not_can_done _ a)
          | ok _ =>
              exact .inr hNext

theorem can_writeText
    (hCan : (writeText path text).Can a) :
    (∃ parent,
        path.parent? = some parent ∧ parent.text ≠ "" ∧
          a = .ensureDir parent) ∨
      a = .write path text := by
  rcases can_insideParent hCan with hMake | hWrite
  · exact .inl hMake
  · exact .inr
      (eq_of_can_single (a := .write path text) hWrite)

theorem can_touch
    (hCan : (touch path text).Can a) :
    (∃ parent,
        path.parent? = some parent ∧ parent.text ≠ "" ∧
          a = .ensureDir parent) ∨
      a = .create path text := by
  rcases can_insideParent hCan with hMake | hCreate
  · exact .inl hMake
  · exact .inr
      (eq_of_can_single (a := .create path text) hCreate)

end Chain

namespace Emitter

variable {e : Emitter} {f : Fragment}
variable {source destination : FilePath} {a : Action}

/-
  A round trip reads, makes the directory of the file, and
  writes the text of a prepared tree.
-/
theorem can_roundTrip
    (hCan : (e.roundTrip f source destination).Can a) :
    a = .read source ∨
      (∃ parent,
        destination.parent? = some parent ∧
          parent.text ≠ "" ∧ a = .ensureDir parent) ∨
      ∃ previous p,
        prepare source f previous = .ok p ∧
          a = .write destination (e.render p.tree) := by
  unfold roundTrip at hCan
  cases hIds : f.ensureUniqueSections with
  | error fault =>
      rw [hIds] at hCan
      exact absurd hCan (Chain.not_can_done _ a)
  | ok _ =>
      rw [hIds] at hCan
      dsimp only at hCan
      rcases Chain.can_bind hCan with hRead | ⟨answer, hNext⟩
      · exact .inl (Chain.can_readText hRead)
      · cases answer with
        | error fault =>
            exact absurd hNext (Chain.not_can_done _ a)
        | ok previous =>
            dsimp only at hNext
            cases hPrepare : prepare source f previous with
            | error fault =>
                rw [hPrepare] at hNext
                exact absurd hNext (Chain.not_can_done _ a)
            | ok p =>
                rw [hPrepare] at hNext
                have hWrite := Chain.can_of_map hNext
                rcases Chain.can_writeText hWrite with
                  hMake | hNow
                · exact .inr (.inl hMake)
                · exact .inr (.inr
                    ⟨previous, p, hPrepare, hNow⟩)

end Emitter

/- A unit with a path is a round trip; others just fail. -/
theorem SourceUnit.chain_cases
    (e : Emitter)
    (unit : SourceUnit) :
    (∃ relative,
        unit.relative? e = some relative ∧
          unit.chain e =
            e.sourceChain unit.tree relative (unit.name e)
              unit.kind) ∨
      ∃ fault,
        unit.chain e =
          .done
            (UnitReport.failed (unit.name e) unit.kind
              fault) := by
  cases unit with
  | package module f =>
      exact .inl ⟨_, rfl, rfl⟩
  | classifier f =>
      dsimp only [chain, relative?]
      unfold Emitter.classifierChain
      by_cases hKind : f.kind = .classifier
      · simp only [if_pos hKind]
        unfold Fragment.requireQualifiedName
        cases f.info.qualifiedName with
        | none =>
            exact .inr ⟨_, rfl⟩
        | some name =>
            exact .inl ⟨_, rfl, rfl⟩
      · simp only [if_neg hKind]
        exact .inr ⟨_, rfl⟩

/- A named template is a file written once. -/
theorem Emitter.templateChain_cases
    (e : Emitter)
    (i : Info)
    (s : String) :
    (∃ name,
        i.qualifiedName = some name ∧
          e.templateChain (.template i s) =
            (Chain.touch (e.destination (e.filePath name))
                (e.render (.template i s))).map
              (fun answer =>
                ⟨(Fragment.template i s).unitName, .template,
                  some (e.destination (e.filePath name)),
                  answer.map
                    (templateSummary
                      (e.render (.template i s)))⟩)) ∨
      ∃ fault,
        e.templateChain (.template i s) =
          .done
            (UnitReport.failed (Fragment.template i s).unitName
              .template (.fragment fault)) := by
  unfold templateChain
  rw [if_pos (show (Fragment.template i s).kind = .template
    from rfl)]
  unfold Fragment.requireQualifiedName
  cases hName : i.qualifiedName with
  | none =>
      simp only [Fragment.info, hName]
      exact .inr ⟨_, rfl⟩
  | some name =>
      simp only [Fragment.info, hName]
      exact .inl ⟨name, rfl, rfl⟩

namespace Task

/-
  What a task does: the directory of a module is made, or the
  one that the file of the task is in; the previous text is
  read; and the file is written.
-/
inductive Takes (e : Emitter) : Task → Action → Prop
| directory
    {module : Fragment}
    {name : QualifiedName} :
    Takes e (.directory module name)
      (.ensureDir (e.destination name.dirPath))
| parent
    {task : Task}
    {relative parent : FilePath}
    (hFile : task.file? e = some relative)
    (hParent :
      (e.destination relative).parent? = some parent)
    (hText : parent.text ≠ "") :
    Takes e task (.ensureDir parent)
| read
    {unit : SourceUnit}
    {relative : FilePath}
    (hFile : unit.relative? e = some relative) :
    Takes e (.source unit) (.read (e.source relative))
| write
    {unit : SourceUnit}
    {relative : FilePath}
    {previous : Option String}
    {p : Emitter.Prepared}
    (hFile : unit.relative? e = some relative)
    (hPrepare :
      Emitter.prepare (e.source relative) unit.tree previous =
        .ok p) :
    Takes e (.source unit)
      (.write (e.destination relative) (e.render p.tree))
| create
    {i : Info}
    {s : String}
    {relative : FilePath}
    (hFile : (Task.template i s).file? e = some relative) :
    Takes e (.template i s)
      (.create (e.destination relative)
        (e.render (.template i s)))

/- A task can do nothing else. -/
theorem takes_of_can
    {e : Emitter}
    {task : Task}
    {a : Action}
    (hCan : (task.chain e).Can a) :
    task.Takes e a := by
  cases task with
  | directory module name =>
      rw [Chain.can_makeDirs (Chain.can_of_map hCan)]
      exact .directory
  | source unit =>
      dsimp only [chain] at hCan
      rcases unit.chain_cases e with
        ⟨relative, hFile, hChain⟩ | ⟨fault, hChain⟩
      · rw [hChain] at hCan
        rcases Emitter.can_roundTrip
            (Chain.can_of_map hCan) with
          hRead | ⟨parent, hParent, hText, hMake⟩ |
            ⟨previous, p, hPrepare, hWrite⟩
        · rw [hRead]
          exact .read hFile
        · rw [hMake]
          exact .parent hFile hParent hText
        · rw [hWrite]
          exact .write hFile hPrepare
      · rw [hChain] at hCan
        exact absurd hCan (Chain.not_can_done _ a)
  | template i s =>
      dsimp only [chain] at hCan
      rcases e.templateChain_cases i s with
        ⟨name, hName, hChain⟩ | ⟨fault, hChain⟩
      · have hFile :
            (Task.template i s).file? e =
              some (e.filePath name) :=
          congrArg (Option.map e.filePath) hName
        rw [hChain] at hCan
        rcases Chain.can_touch (Chain.can_of_map hCan) with
          ⟨parent, hParent, hText, hMake⟩ | hCreate
        · rw [hMake]
          exact .parent hFile hParent hText
        · rw [hCreate]
          exact .create hFile
      · rw [hChain] at hCan
        exact absurd hCan (Chain.not_can_done _ a)
  | refused name kind fault =>
      exact absurd hCan (Chain.not_can_done _ a)

/- The file of a task with a parsed name is a unit file. -/
theorem isUnitFile_of_file?
    {e : Emitter}
    {task : Task}
    {relative : FilePath}
    (hRegular : e.IsRegular)
    (hNames : task.HasParsedName)
    (hFile : task.file? e = some relative) :
    relative.IsUnitFile := by
  cases task with
  | directory module name =>
      cases hFile
  | source unit =>
      cases unit with
      | classifier f =>
          dsimp only [file?, SourceUnit.relative?] at hFile
          split at hFile
          · rcases Option.map_eq_some_iff.mp hFile with
              ⟨name, hName, rfl⟩
            exact Emitter.isUnitFile_filePath hRegular
              (hNames name hName)
          · cases hFile
      | package module f =>
          cases hFile
          exact Emitter.isUnitFile_packageFilePath hRegular
            (hNames module rfl)
  | template i s =>
      rcases Option.map_eq_some_iff.mp hFile with
        ⟨name, hName, rfl⟩
      exact Emitter.isUnitFile_filePath hRegular
        (hNames name hName)
  | refused name kind fault =>
      cases hFile

end Task

end Palimpsest
