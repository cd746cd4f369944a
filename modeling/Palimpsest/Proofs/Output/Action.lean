import Palimpsest.Output.Emitter

/-
  What chains and jobs may do to a file tree.

  Each step of a chain is an action on the file tree, and the
  chain goes on as the answer to it says.  A chain can take an
  action when some answers to the actions before lead there.
  What all actions that a chain can take keep is kept by a
  whole run, whatever fails on the way.

  Main declarations:
    * `Action`
    * `Chain.induct`
    * `Chain.Can`
    * `Chain.run_keeps`
    * `Job.induct`
    * `Job.chains`
    * `Job.run_mk`
-/

namespace Palimpsest

------------------------------------------------------------
-- Actions
------------------------------------------------------------

/- One access to a file tree. -/
inductive Action where
| ensureDir (path : FilePath)
| read (path : FilePath)
| write (path : FilePath) (text : String)
| create (path : FilePath) (text : String)

namespace Action

/- What an action is answered. -/
abbrev Answer : Action → Type
| .ensureDir _ => Except FileFault Unit
| .read _ => Except FileFault (Option String)
| .write _ _ => Except FileFault Unit
| .create _ _ => Except FileFault Bool

/- The answer to an action, and the file tree after it. -/
def perform : (a : Action) → FileTree → a.Answer × FileTree
| .ensureDir path, t => t.ensureDir path
| .read path, t => (t.readIfExists path, t)
| .write path text, t => t.write path text
| .create path text, t => t.create path text

end Action

------------------------------------------------------------
-- Chains Of Actions
------------------------------------------------------------

namespace Chain

variable {α β : Type}

/- The chain that takes an action and goes on. -/
def step : (a : Action) → (a.Answer → Chain α) → Chain α
| .ensureDir path, next => .ensureDir path next
| .read path, next => .read path next
| .write path text, next => .write path text next
| .create path text, next => .create path text next

/-
  What holds of finished chains, and of a chain whenever it
  holds after every answer to its action, holds of all.
-/
@[elab_as_elim]
theorem induct
    {motive : Chain α → Prop}
    (done : ∀ result, motive (.done result))
    (step : ∀ a next,
      (∀ answer, motive (next answer)) →
        motive (.step a next))
    (c : Chain α) : motive c := by
  induction c with
  | done result =>
      exact done result
  | ensureDir path next ih =>
      exact step (.ensureDir path) next ih
  | read path next ih =>
      exact step (.read path) next ih
  | write path text next ih =>
      exact step (.write path text) next ih
  | create path text next ih =>
      exact step (.create path text) next ih

theorem run_step
    (a : Action)
    (next : a.Answer → Chain α)
    (t : FileTree) :
    (step a next).run t =
      (next (a.perform t).1).run (a.perform t).2 := by
  cases a <;> rfl

theorem bind_step
    (a : Action)
    (next : a.Answer → Chain α)
    (f : α → Chain β) :
    (step a next).bind f =
      step a (fun answer => (next answer).bind f) := by
  cases a <;> rfl

/-
  The chain takes the action now, or after some answers to the
  actions before it.
-/
inductive Can : Chain α → Action → Prop where
| now
    {c : Chain α}
    {a : Action}
    {next : a.Answer → Chain α}
    (hStep : c = step a next) :
    Can c a
| later
    {c : Chain α}
    {a b : Action}
    {next : a.Answer → Chain α}
    (answer : a.Answer)
    (hStep : c = step a next)
    (hCan : Can (next answer) b) :
    Can c b

theorem step_ne_done
    (result : α)
    (a : Action)
    (next : a.Answer → Chain α) :
    .done result ≠ step a next := by
  intro hEq
  cases a <;> cases hEq

theorem not_can_done
    (result : α)
    (a : Action) :
    ¬ (Chain.done result).Can a := by
  intro hCan
  cases hCan with
  | now hStep =>
      exact step_ne_done result _ _ hStep
  | later _ hStep _ =>
      exact step_ne_done result _ _ hStep

theorem can_step_iff
    {a b : Action}
    {next : a.Answer → Chain α} :
    (step a next).Can b ↔
      b = a ∨ ∃ answer, (next answer).Can b := by
  constructor
  · intro hCan
    cases hCan with
    | now hStep =>
        left
        cases a <;> cases b <;> cases hStep <;> rfl
    | @later _ c _ other answer hStep hLater =>
        right
        cases a <;> cases c <;> cases hStep <;>
          exact ⟨answer, hLater⟩
  · rintro (rfl | ⟨answer, hLater⟩)
    · exact .now rfl
    · exact .later answer rfl hLater

/- A chain of one action takes no other. -/
theorem eq_of_can_single
    {a b : Action}
    {f : a.Answer → α}
    (hCan :
      (step a (fun answer => .done (f answer))).Can b) :
    b = a := by
  rcases can_step_iff.mp hCan with hNow | ⟨answer, hLater⟩
  · exact hNow
  · exact absurd hLater (not_can_done _ b)

/-
  A chain that goes on with another can take the actions of
  both.
-/
theorem can_bind
    {c : Chain α}
    {f : α → Chain β}
    {a : Action}
    (hCan : (c.bind f).Can a) :
    c.Can a ∨ ∃ result, (f result).Can a := by
  induction c using Chain.induct with
  | done result =>
      exact .inr ⟨result, hCan⟩
  | step b next ih =>
      rw [bind_step, can_step_iff] at hCan
      rw [can_step_iff]
      rcases hCan with hNow | ⟨answer, hLater⟩
      · exact .inl (.inl hNow)
      · rcases ih answer hLater with hFirst | hSecond
        · exact .inl (.inr ⟨answer, hFirst⟩)
        · exact .inr hSecond

/- Changing the result of a chain adds no actions. -/
theorem can_of_map
    {c : Chain α}
    {f : α → β}
    {a : Action}
    (hCan : (c.map f).Can a) :
    c.Can a := by
  rcases can_bind hCan with hOld | ⟨_, hNew⟩
  · exact hOld
  · exact absurd hNew (not_can_done _ a)

------------------------------------------------------------
-- What A Run Keeps
------------------------------------------------------------

variable {R : FileTree → FileTree → Prop}

/- What every action of a chain keeps, a run of it keeps. -/
theorem run_keeps
    (hRefl : ∀ t, R t t)
    (hTrans : ∀ t u v, R t u → R u v → R t v)
    {c : Chain α}
    (hKeeps : ∀ a, c.Can a → ∀ t, R t (a.perform t).2)
    (t : FileTree) :
    R t (c.run t).2 := by
  induction c using Chain.induct generalizing t with
  | done result =>
      exact hRefl t
  | step a next ih =>
      have hFirst := hKeeps a (can_step_iff.mpr (.inl rfl)) t
      have hRest := ih (a.perform t).1
        (fun b hCan =>
          hKeeps b (can_step_iff.mpr (.inr ⟨_, hCan⟩)))
        (a.perform t).2
      rw [run_step]
      exact hTrans _ _ _ hFirst hRest

end Chain

------------------------------------------------------------
-- Jobs
------------------------------------------------------------

namespace Job

/-
  What holds of a job whenever it holds of its followers holds
  of every job.
-/
@[elab_as_elim]
theorem induct
    {motive : Job → Prop}
    (mk : ∀ unit followers,
      (∀ job ∈ followers, motive job) →
        motive (.mk unit followers))
    (job : Job) : motive job :=
  @Job.rec motive
    (fun jobs => ∀ job ∈ jobs, motive job)
    mk
    (by simp)
    (fun _ _ hFirst hRest =>
      List.forall_mem_cons.mpr ⟨hFirst, hRest⟩)
    job

mutual

/- The units of a job, with those that follow, in order. -/
def chains : Job → List (Chain UnitReport)
| .mk unit followers => unit :: chainsList followers

/- The units of jobs, in order. -/
def chainsList : List Job → List (Chain UnitReport)
| [] => []
| job :: jobs => chains job ++ chainsList jobs

end

theorem chainsList_eq_flatMap (jobs : List Job) :
    chainsList jobs = jobs.flatMap chains := by
  induction jobs with
  | nil =>
      rfl
  | cons job jobs ih =>
      rw [chainsList, ih, List.flatMap_cons]

theorem chainsList_append (first second : List Job) :
    chainsList (first ++ second) =
      chainsList first ++ chainsList second := by
  simp only [chainsList_eq_flatMap, List.flatMap_append]

/- The reports of a job, one unit before the others. -/
theorem run_mk
    (unit : Chain UnitReport)
    (followers : List Job)
    (t : FileTree) :
    (Job.mk unit followers).run t =
      if (unit.run t).1.IsSuccess then
        ((unit.run t).1 ::
            (runList followers (unit.run t).2).1,
          (runList followers (unit.run t).2).2)
      else
        ([(unit.run t).1], (unit.run t).2) := by
  rw [run]

/- A job of one unit reports on that unit. -/
theorem run_single
    (unit : Chain UnitReport)
    (t : FileTree) :
    (single unit).run t =
      ([(unit.run t).1], (unit.run t).2) := by
  unfold single
  rw [run_mk]
  split <;> rfl

theorem runList_cons
    (job : Job)
    (jobs : List Job)
    (t : FileTree) :
    runList (job :: jobs) t =
      ((job.run t).1 ++ (runList jobs (job.run t).2).1,
        (runList jobs (job.run t).2).2) := by
  rw [runList]

theorem runList_singleton
    (job : Job)
    (t : FileTree) :
    runList [job] t = job.run t := by
  rw [runList_cons, runList, List.append_nil]

end Job

end Palimpsest
