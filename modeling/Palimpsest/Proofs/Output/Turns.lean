import Palimpsest.Proofs.Output.Interleave

/-
  What holds in whatever order units take their turns.

  What every action of the units keeps is kept in every order.
  Taking turns does not change which units follow which, and
  jobs that are done have the reports of their units.  A pass
  is any order of turns until all units are done; one unit
  after another is such an order.

  Main declarations:
    * `Job.keeps_of_steps`
    * `Job.shape`
    * `Job.shapes_of_steps`
    * `Job.outcome?_eq_some_iff`
    * `Emitter.Passes`
    * `Emitter.passes_emitAll`
-/

namespace Palimpsest

------------------------------------------------------------
-- What All Actions Keep
------------------------------------------------------------

namespace Job

variable {jobs rest followers : List Job} {job other : Job}
variable {t u : FileTree} {a : Action}
variable {next : a.Answer → List Job}
variable {reports : List UnitReport}

/-
  What every action that the units can take keeps, is kept in
  whatever order they take them.
-/
theorem keeps_of_steps
    {R : FileTree → FileTree → Prop}
    (hRefl : ∀ t, R t t)
    (hTrans : ∀ t u v, R t u → R u v → R t v)
    {s s' : List Job × FileTree}
    (hSteps : Relation.ReflTransGen Step s s')
    (hKeeps : ∀ c ∈ chainsList s.1, ∀ a, c.Can a → ∀ t,
      R t (a.perform t).2) :
    R s.2 s'.2 := by
  induction hSteps using Relation.ReflTransGen.head_induction_on with
  | refl =>
      exact hRefl _
  | @head s _ hStep _ ih =>
      rcases hStep with ⟨a, next, hOffers, rfl⟩
      rcases hOffers.exists_chain with
        ⟨front, unit, back, hNow, hNext⟩
      simp only [hNow, List.forall_mem_append,
        List.forall_mem_cons] at hKeeps
      rcases hKeeps with ⟨hFront, hHere, hBack⟩
      apply hTrans _ _ _
        (hHere a (Chain.can_step_iff.mpr (.inl rfl)) s.2)
      apply ih
      simp only [hNext, List.forall_mem_append,
        List.forall_mem_cons]
      refine ⟨hFront, fun b hCan => ?_, hBack⟩
      exact hHere b (Chain.can_step_iff.mpr (.inr ⟨_, hCan⟩))

/- So it is kept when the jobs are done one after another. -/
theorem keeps_runList
    {R : FileTree → FileTree → Prop}
    (hRefl : ∀ t, R t t)
    (hTrans : ∀ t u v, R t u → R u v → R t v)
    (hKeeps : ∀ c ∈ chainsList jobs, ∀ a, c.Can a → ∀ t,
      R t (a.perform t).2)
    (t : FileTree) :
    R t (runList jobs t).2 := by
  rcases exists_steps_runList jobs t with ⟨done, _, hSteps⟩
  exact keeps_of_steps hRefl hTrans hSteps hKeeps

------------------------------------------------------------
-- The Shape Of Jobs
------------------------------------------------------------

/- A job without what its units do. -/
inductive Shape where
| mk (followers : List Shape)

mutual

/- Which units follow which. -/
def shape : Job → Shape
| .mk _ followers => .mk (shapes followers)

/- The shapes of jobs, in order. -/
def shapes : List Job → List Shape
| [] => []
| job :: jobs => shape job :: shapes jobs

end

mutual

/- The number of units of a job. -/
def Shape.size : Shape → Nat
| .mk followers => Shape.sizes followers + 1

/- The number of units of jobs. -/
def Shape.sizes : List Shape → Nat
| [] => 0
| shape :: shapes => Shape.size shape + Shape.sizes shapes

end

/- Units without followers are just as many units. -/
theorem Shape.sizes_single
    {α : Type}
    (entries : List α) :
    Shape.sizes (entries.map (fun _ => .mk [])) =
      entries.length := by
  induction entries with
  | nil =>
      rfl
  | cons entry entries ih =>
      rw [List.map_cons, Shape.sizes, ih, Shape.size,
        Shape.sizes, List.length_cons, Nat.zero_add,
        Nat.add_comm]

theorem shapes_eq_map (jobs : List Job) :
    shapes jobs = jobs.map shape := by
  induction jobs with
  | nil =>
      rfl
  | cons job jobs ih =>
      rw [shapes, ih, List.map_cons]

theorem length_chainsList_of_mem
    (hJobs : ∀ job ∈ jobs,
      job.chains.length = job.shape.size) :
    (chainsList jobs).length = Shape.sizes (shapes jobs) := by
  induction jobs with
  | nil =>
      rfl
  | cons job jobs ih =>
      rw [List.forall_mem_cons] at hJobs
      rw [chainsList, List.length_append, hJobs.1, ih hJobs.2,
        shapes, Shape.sizes]

/- The shape of a job tells how many units it has. -/
theorem length_chains (job : Job) :
    job.chains.length = job.shape.size := by
  induction job using Job.induct with
  | mk unit followers ih =>
      rw [chains, List.length_cons,
        length_chainsList_of_mem ih, shape, Shape.size]

theorem length_chainsList (jobs : List Job) :
    (chainsList jobs).length = Shape.sizes (shapes jobs) :=
  length_chainsList_of_mem (fun job _ => job.length_chains)

/- Taking an action changes no shape. -/
theorem Offers.shapes_next
    (hOffers : Offers jobs a next)
    (answer : a.Answer) :
    shapes (next answer) = shapes jobs := by
  induction hOffers with
  | unit =>
      rfl
  | follower _ _ ih =>
      simp only [shapes, shape, ih]
  | later _ ih =>
      rw [shapes, shapes, ih]

theorem shapes_of_steps
    {s s' : List Job × FileTree}
    (hSteps : Relation.ReflTransGen Step s s') :
    shapes s'.1 = shapes s.1 := by
  induction hSteps with
  | refl =>
      rfl
  | tail _ hStep ih =>
      rcases hStep with ⟨a, next, hOffers, rfl⟩
      exact (hOffers.shapes_next _).trans ih

------------------------------------------------------------
-- Reports Of Jobs That Are Done
------------------------------------------------------------

/-
  A unit with followers is done with its report, and with
  those of its followers if it was not stopped.
-/
theorem outcome?_eq_some_iff {unit : Chain UnitReport} :
    (Job.mk unit followers).outcome? = some reports ↔
      ∃ report,
        unit = .done report ∧
          ((report.IsSuccess ∧
              ∃ others,
                outcomes? followers = some others ∧
                  reports = report :: others) ∨
            (¬ report.IsSuccess ∧ reports = [report])) := by
  cases unit with
  | done report =>
      simp only [outcome?, Chain.done.injEq,
        exists_eq_left']
      by_cases hSuccess : report.IsSuccess
      · simp [hSuccess, eq_comm (a := reports)]
      · simp [hSuccess, eq_comm]
  | _ =>
      simp [outcome?]

/- A unit without followers is done with its report. -/
theorem outcome?_single_iff {unit : Chain UnitReport} :
    (Job.mk unit []).outcome? = some reports ↔
      ∃ report, unit = .done report ∧ reports = [report] := by
  rw [outcome?_eq_some_iff]
  apply exists_congr
  intro report
  by_cases hSuccess : report.IsSuccess <;>
    simp [outcomes?, hSuccess]

/- Jobs are done when the first and the later ones are. -/
theorem outcomes?_cons_eq_some_iff :
    outcomes? (job :: jobs) = some reports ↔
      ∃ first others,
        job.outcome? = some first ∧
          outcomes? jobs = some others ∧
            reports = first ++ others := by
  simp only [outcomes?, Option.bind_eq_some_iff,
    Option.map_eq_some_iff, eq_comm (a := reports)]
  constructor
  · rintro ⟨first, hFirst, others, hOthers, hReports⟩
    exact ⟨first, others, hFirst, hOthers, hReports⟩
  · rintro ⟨first, others, hFirst, hOthers, hReports⟩
    exact ⟨first, hFirst, others, hOthers, hReports⟩

theorem outcomes?_append_eq_some_iff :
    outcomes? (jobs ++ rest) = some reports ↔
      ∃ first others,
        outcomes? jobs = some first ∧
          outcomes? rest = some others ∧
            reports = first ++ others := by
  induction jobs generalizing reports with
  | nil =>
      simp [outcomes?]
  | cons job jobs ih =>
      rw [List.cons_append, outcomes?_cons_eq_some_iff]
      constructor
      · rintro ⟨own, later, hOwn, hLater, rfl⟩
        rcases ih.mp hLater with
          ⟨first, others, hFirst, hOthers, rfl⟩
        refine ⟨own ++ first, others, ?_, hOthers,
          (List.append_assoc _ _ _).symm⟩
        exact outcomes?_cons_eq_some_iff.mpr
          ⟨own, first, hOwn, hFirst, rfl⟩
      · rintro ⟨_, others, hFront, hOthers, rfl⟩
        rcases outcomes?_cons_eq_some_iff.mp hFront with
          ⟨own, first, hOwn, hFirst, rfl⟩
        exact ⟨own, first ++ others, hOwn,
          ih.mpr ⟨first, others, hFirst, hOthers, rfl⟩,
          List.append_assoc _ _ _⟩

theorem done_mem_of_outcomes?_of_mem
    (hJobs : ∀ job ∈ jobs, ∀ reports,
      job.outcome? = some reports →
        ∀ report ∈ reports, Chain.done report ∈ job.chains)
    (hDone : outcomes? jobs = some reports) :
    ∀ report ∈ reports,
      Chain.done report ∈ chainsList jobs := by
  induction jobs generalizing reports with
  | nil =>
      cases hDone
      exact fun _ hMem => absurd hMem List.not_mem_nil
  | cons job jobs ih =>
      rw [List.forall_mem_cons] at hJobs
      rcases outcomes?_cons_eq_some_iff.mp hDone with
        ⟨first, others, hFirst, hOthers, rfl⟩
      rw [chainsList]
      intro report hMem
      rcases List.mem_append.mp hMem with hOwn | hOther
      · exact List.mem_append_left _
          (hJobs.1 first hFirst report hOwn)
      · exact List.mem_append_right _
          (ih hJobs.2 hOthers report hOther)

theorem done_mem_of_outcome?
    (hDone : job.outcome? = some reports) :
    ∀ report ∈ reports, Chain.done report ∈ job.chains := by
  induction job using Job.induct generalizing reports with
  | mk unit followers ih =>
      rcases outcome?_eq_some_iff.mp hDone with
        ⟨report, rfl, ⟨_, others, hOthers, rfl⟩ | ⟨_, rfl⟩⟩
      · rw [chains, List.forall_mem_cons]
        refine ⟨List.mem_cons_self, fun other hMem => ?_⟩
        exact List.mem_cons_of_mem _
          (done_mem_of_outcomes?_of_mem
            (fun job hJob _ hOwn => ih job hJob hOwn)
            hOthers other hMem)
      · rw [List.forall_mem_singleton]
        exact List.mem_cons_self

/- Every report of jobs that are done is that of a unit. -/
theorem done_mem_of_outcomes?
    (hDone : outcomes? jobs = some reports) :
    ∀ report ∈ reports,
      Chain.done report ∈ chainsList jobs :=
  done_mem_of_outcomes?_of_mem
    (fun _ _ _ hOwn => done_mem_of_outcome? hOwn) hDone

end Job

------------------------------------------------------------
-- Passes
------------------------------------------------------------

namespace Emitter

/-
  A pass: the units take turns in some order, until all of
  them are done.
-/
def Passes
    (e : Emitter)
    (units : List Fragment)
    (t : FileTree)
    (report : Report)
    (u : FileTree) : Prop :=
  ∃ done,
    Relation.ReflTransGen Job.Step (e.jobs units, t)
        (done, u) ∧
      Job.outcomes? done = some report.units

/- Writing the units one after another is a pass. -/
theorem passes_emitAll
    (e : Emitter)
    (units : List Fragment)
    (t : FileTree) :
    e.Passes units t (e.emitAll units t).1
      (e.emitAll units t).2 := by
  rcases Job.exists_steps_runList (e.jobs units) t with
    ⟨done, hDone, hSteps⟩
  exact ⟨done, hSteps, hDone⟩

end Emitter

end Palimpsest
