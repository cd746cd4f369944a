import Palimpsest.Proofs.Output.Commute

/-
  Runs of chains and jobs in trees that agree.

  A chain is ready when it writes only into directories that
  are there by then, whatever directories others make in
  between.  Such a chain reports the same in two trees that
  agree wherever it looks, and an action that is apart from
  all of its actions commutes with its whole run.  The jobs of
  a pass, done one after another, are one chain.

  Main declarations:
    * `Chain.Ready`
    * `Chain.IsSound`
    * `Chain.run_alike`
    * `Chain.run_comm`
    * `Job.flatList`
    * `Job.runList_congr`
-/

namespace Palimpsest

------------------------------------------------------------
-- Trees With The Same Nodes
------------------------------------------------------------

namespace FileTree

variable {t u v : FileTree}

theorem Same.refl (t : FileTree) : t.Same t :=
  fun _ => rfl

theorem Same.symm (hSame : t.Same u) : u.Same t :=
  fun place => (hSame place).symm

theorem Same.trans
    (hFirst : t.Same u)
    (hSecond : u.Same v) :
    t.Same v :=
  fun place => (hFirst place).trans (hSecond place)

theorem Same.keepsDirectories (hSame : t.Same u) :
    t.KeepsDirectories u := by
  intro place hNode
  rw [← hSame place]
  exact hNode

theorem Same.isRooted
    (hSame : t.Same u)
    (hRooted : t.IsRooted) :
    u.IsRooted := by
  intro place n hNode
  rw [← hSame place] at hNode
  exact hSame.keepsDirectories.leads (hRooted place n hNode)

variable {puts : Location → Node → Prop}
variable {changed other later last : FileTree}

/- The same trees are changed alike into the same trees. -/
theorem ChangedAlike.same
    (hChanged : ChangedAlike puts t u changed other)
    (hSame : t.Same u) :
    changed.Same other := by
  intro place
  rcases hChanged place with
    ⟨hFirst, hSecond⟩ | ⟨n, _, hFirst, hSecond⟩
  · rw [hFirst, hSecond, hSame place]
  · rw [hFirst, hSecond]

theorem ChangedAlike.trans
    {more : Location → Node → Prop}
    (hFirst : ChangedAlike puts t u changed other)
    (hSecond : ChangedAlike more changed other later last) :
    ChangedAlike (fun _ _ => True) t u later last := by
  intro place
  rcases hSecond place with
    ⟨hLater, hLast⟩ | ⟨n, _, hLater, hLast⟩
  · rw [hLater, hLast]
    rcases hFirst place with hKept | ⟨n, _, hNew⟩
    · exact .inl hKept
    · exact .inr ⟨n, trivial, hNew⟩
  · exact .inr ⟨n, trivial, hLater, hLast⟩

end FileTree

------------------------------------------------------------
-- Chains That Are Ready
------------------------------------------------------------

namespace Chain

variable {α β : Type} {t u : FileTree} {c : Chain α}

/-
  Each action of the chain is ready when its turn comes, also
  when others have added directories in between.
-/
inductive Ready : Chain α → FileTree → Prop where
| done
    (result : α)
    (t : FileTree) :
    Ready (.done result) t
| step
    {c : Chain α}
    {a : Action}
    {next : a.Answer → Chain α}
    {t : FileTree}
    (hStep : c = step a next)
    (hNow : a.IsReady t)
    (hLater : ∀ u,
      t.KeepsDirectories u →
        Ready (next (a.perform u).1) (a.perform u).2) :
    Ready c t

theorem ready_step_iff
    {a : Action}
    {next : a.Answer → Chain α} :
    (step a next).Ready t ↔
      a.IsReady t ∧
        ∀ u, t.KeepsDirectories u →
          (next (a.perform u).1).Ready (a.perform u).2 := by
  constructor
  · intro hReady
    generalize hChain : step a next = c at hReady
    cases hReady with
    | done result =>
        exact absurd hChain.symm (step_ne_done result a next)
    | @step _ b other _ hStep hNow hLater =>
        have hEq := hChain.trans hStep
        cases a <;> cases b <;> cases hEq <;>
          exact ⟨hNow, hLater⟩
  · rintro ⟨hNow, hLater⟩
    exact .step rfl hNow hLater

theorem Ready.of_keepsDirectories
    (hReady : c.Ready t)
    (hKeeps : t.KeepsDirectories u) :
    c.Ready u := by
  cases hReady with
  | done result =>
      exact .done result u
  | step hStep hNow hLater =>
      exact .step hStep (hNow.of_keepsDirectories hKeeps)
        (fun v hMore => hLater v (hKeeps.trans hMore))

theorem ready_bind
    {f : α → Chain β}
    (hFirst : c.Ready t)
    (hSecond : ∀ result u,
      t.KeepsDirectories u → (f result).Ready u) :
    (c.bind f).Ready t := by
  induction c using Chain.induct generalizing t with
  | done result =>
      exact hSecond result t (.refl t)
  | step a next ih =>
      rw [ready_step_iff] at hFirst
      rw [bind_step, ready_step_iff]
      refine ⟨hFirst.1, fun u hKeeps => ?_⟩
      apply ih _ (hFirst.2 u hKeeps)
      intro result v hMore
      apply hSecond
      exact hKeeps.trans
        ((Action.keepsDirectories_perform a u).trans hMore)

theorem ready_map
    (hReady : c.Ready t)
    (f : α → β) :
    (c.map f).Ready t :=
  ready_bind hReady (fun result u _ => .done (f result) u)

/- No run takes a directory away. -/
theorem keepsDirectories_run
    (c : Chain α)
    (t : FileTree) :
    t.KeepsDirectories (c.run t).2 :=
  run_keeps FileTree.KeepsDirectories.refl
    (fun _ _ _ => FileTree.KeepsDirectories.trans)
    (fun a _ => Action.keepsDirectories_perform a) t

theorem isRooted_run
    (hRooted : t.IsRooted)
    (c : Chain α) :
    (c.run t).2.IsRooted := by
  have hKept := run_keeps
    (R := fun t u => t.IsRooted → u.IsRooted)
    (c := c) (fun _ h => h)
    (fun _ _ _ hFirst hSecond h => hSecond (hFirst h))
    (fun a _ t h => Action.isRooted_perform h a) t
  exact hKept hRooted

/-
  A chain that is ready in a tree, and whose actions are all
  plain.
-/
structure IsSound
    (c : Chain α)
    (t : FileTree) : Prop where
  plain : ∀ a, c.Can a → a.IsPlain
  ready : c.Ready t

theorem IsSound.of_keepsDirectories
    (hSound : c.IsSound t)
    (hKeeps : t.KeepsDirectories u) :
    c.IsSound u :=
  ⟨hSound.plain, hSound.ready.of_keepsDirectories hKeeps⟩

section Step

variable {a : Action} {next : a.Answer → Chain α}

theorem IsSound.isPlain
    (hSound : (Chain.step a next).IsSound t) :
    a.IsPlain :=
  hSound.plain a (can_step_iff.mpr (.inl rfl))

theorem IsSound.isReady
    (hSound : (Chain.step a next).IsSound t) :
    a.IsReady t :=
  (ready_step_iff.mp hSound.ready).1

/- A sound chain is sound after its first action. -/
theorem IsSound.rest
    (hSound : (Chain.step a next).IsSound t) :
    (next (a.perform t).1).IsSound (a.perform t).2 := by
  refine ⟨fun b hCan => ?_, ?_⟩
  · exact hSound.plain b (can_step_iff.mpr (.inr ⟨_, hCan⟩))
  · exact (ready_step_iff.mp hSound.ready).2 t (.refl t)

end Step

------------------------------------------------------------
-- Runs In Trees That Agree
------------------------------------------------------------

/-
  In two trees that agree wherever a chain looks, it has the
  same result and makes the same changes.
-/
theorem run_alike
    (hFirst : c.IsSound t)
    (hSecond : c.IsSound u)
    (hRooted : t.IsRooted)
    (hRootedToo : u.IsRooted)
    (hAlike : ∀ a, c.Can a → a.Alike t u) :
    (c.run t).1 = (c.run u).1 ∧
      FileTree.ChangedAlike (fun _ _ => True) t u
        (c.run t).2 (c.run u).2 := by
  induction c using Chain.induct generalizing t u with
  | done result =>
      exact ⟨rfl, FileTree.changedAlike_self _ t u⟩
  | step a next ih =>
      have hStep := Action.perform_alike hFirst.isPlain
        hRooted hRootedToo hFirst.isReady hSecond.isReady
        (hAlike a (can_step_iff.mpr (.inl rfl)))
      have hOther := hSecond.rest
      rw [← hStep.1] at hOther
      have hRest := ih (a.perform t).1 hFirst.rest hOther
        (Action.isRooted_perform hRooted a)
        (Action.isRooted_perform hRootedToo a)
        (fun b hCan =>
          (hAlike b (can_step_iff.mpr (.inr ⟨_, hCan⟩))
            ).of_changedAlike hStep.2)
      rw [run_step, run_step, ← hStep.1]
      exact ⟨hRest.1, hStep.2.trans hRest.2⟩

/- A run leaves a place alone where nothing is ever put. -/
theorem at?_run
    {place : Location}
    (hPlain : ∀ a, c.Can a → a.IsPlain)
    (hNever : ∀ a, c.Can a → ∀ n, ¬ a.Puts place n)
    (t : FileTree) :
    (c.run t).2.at? place = t.at? place := by
  have hKept := run_keeps
    (R := fun t u => u.at? place = t.at? place) (c := c)
    (fun _ => rfl)
    (fun _ _ _ hFirst hSecond => hSecond.trans hFirst)
  apply hKept
  intro a hCan u
  rcases Action.perform_cases (hPlain a hCan) u place with
    hSame | ⟨n, hPuts, _⟩
  · exact hSame
  · exact absurd hPuts (hNever a hCan n)

/- In the same trees, a chain does the same. -/
theorem run_congr
    (hSound : c.IsSound t)
    (hRooted : t.IsRooted)
    (hSame : t.Same u) :
    (c.run t).1 = (c.run u).1 ∧
      (c.run t).2.Same (c.run u).2 := by
  have hRun := run_alike hSound
    (hSound.of_keepsDirectories hSame.keepsDirectories)
    hRooted (hSame.isRooted hRooted)
    (fun a _ => Action.alike_of_same hSame a)
  exact ⟨hRun.1, hRun.2.same hSame⟩

/-
  An action that is apart from all actions of a chain commutes
  with its run.
-/
theorem run_comm
    {b : Action}
    (hApart : ∀ a, c.Can a → a.Apart b)
    (hSound : c.IsSound t)
    (hPlain : b.IsPlain)
    (hRooted : t.IsRooted)
    (hReady : b.IsReady t) :
    (c.run (b.perform t).2).1 = (c.run t).1 ∧
      (c.run (b.perform t).2).2.Same
        (b.perform (c.run t).2).2 ∧
      (b.perform (c.run t).2).1 = (b.perform t).1 := by
  induction c using Chain.induct generalizing t with
  | done result =>
      exact ⟨rfl, .refl _, rfl⟩
  | step a next ih =>
      have hNow := hApart a (can_step_iff.mpr (.inl rfl))
      have hFirst := Action.perform_comm hNow hSound.isPlain
        hPlain hRooted hSound.isReady hReady
      have hSecond := Action.perform_comm hNow.symm hPlain
        hSound.isPlain hRooted hReady hSound.isReady
      have hKeeps := Action.keepsDirectories_perform a t
      have hMade := Action.isRooted_perform hRooted a
      have hRest := ih (a.perform t).1
        (fun d hCan =>
          hApart d (can_step_iff.mpr (.inr ⟨_, hCan⟩)))
        hSound.rest hMade (hReady.of_keepsDirectories hKeeps)
      have hAfter :=
        (hSound.of_keepsDirectories
          (Action.keepsDirectories_perform b t)).rest
      rw [hFirst.1] at hAfter
      have hCongr := run_congr hAfter
        (Action.isRooted_perform
          (Action.isRooted_perform hRooted b) a) hFirst.2
      rw [run_step, run_step, hFirst.1]
      exact ⟨hCongr.1.trans hRest.1,
        hCongr.2.trans hRest.2.1,
        hRest.2.2.trans hSecond.1⟩

end Chain

------------------------------------------------------------
-- Jobs As One Chain
------------------------------------------------------------

namespace Job

mutual

/- All that a job does, one unit after another. -/
def flat : Job → Chain (List UnitReport)
| .mk unit followers =>
    unit.bind (fun report =>
      if report.IsSuccess then
        (flatList followers).map (fun rest => report :: rest)
      else
        .done [report])

/- All that jobs do, one after another. -/
def flatList : List Job → Chain (List UnitReport)
| [] => .done []
| job :: jobs =>
    (flat job).bind (fun first =>
      (flatList jobs).map (fun rest => first ++ rest))

end

theorem run_flatList_of_mem
    {jobs : List Job}
    (hJobs : ∀ job ∈ jobs, ∀ t, job.flat.run t = job.run t)
    (t : FileTree) :
    (flatList jobs).run t = runList jobs t := by
  induction jobs generalizing t with
  | nil =>
      rfl
  | cons job jobs ih =>
      rw [List.forall_mem_cons] at hJobs
      rw [flatList, Chain.run_bind, hJobs.1, Chain.map,
        Chain.run_bind, ih hJobs.2, runList_cons]
      rfl

theorem run_flat
    (job : Job)
    (t : FileTree) :
    job.flat.run t = job.run t := by
  induction job using Job.induct generalizing t with
  | mk unit followers ih =>
      rw [flat, Chain.run_bind, run_mk]
      split
      · rw [Chain.map, Chain.run_bind,
          run_flatList_of_mem ih]
        rfl
      · rfl

theorem run_flatList
    (jobs : List Job)
    (t : FileTree) :
    (flatList jobs).run t = runList jobs t :=
  run_flatList_of_mem (fun job _ => job.run_flat) t

theorem can_flatList_of_mem
    {jobs : List Job}
    {a : Action}
    (hJobs : ∀ job ∈ jobs,
      job.flat.Can a → ∃ c ∈ job.chains, c.Can a)
    (hCan : (flatList jobs).Can a) :
    ∃ c ∈ chainsList jobs, c.Can a := by
  induction jobs with
  | nil =>
      rw [flatList] at hCan
      exact absurd hCan (Chain.not_can_done _ a)
  | cons job jobs ih =>
      rw [List.forall_mem_cons] at hJobs
      rw [flatList] at hCan
      rw [chainsList]
      rcases Chain.can_bind hCan with hFirst | ⟨_, hRest⟩
      · rcases hJobs.1 hFirst with ⟨c, hMem, hTakes⟩
        exact ⟨c, List.mem_append_left _ hMem, hTakes⟩
      · rcases ih hJobs.2 (Chain.can_of_map hRest) with
          ⟨c, hMem, hTakes⟩
        exact ⟨c, List.mem_append_right _ hMem, hTakes⟩

theorem can_flat
    {job : Job}
    {a : Action}
    (hCan : job.flat.Can a) :
    ∃ c ∈ job.chains, c.Can a := by
  induction job using Job.induct with
  | mk unit followers ih =>
      rw [flat] at hCan
      rw [chains]
      rcases Chain.can_bind hCan with hUnit | ⟨report, hRest⟩
      · exact ⟨unit, List.mem_cons_self, hUnit⟩
      · split at hRest
        · rcases can_flatList_of_mem
              (fun job hJob hTakes => ih job hJob hTakes)
              (Chain.can_of_map hRest) with
            ⟨c, hMem, hTakes⟩
          exact ⟨c, List.mem_cons_of_mem _ hMem, hTakes⟩
        · exact absurd hRest (Chain.not_can_done _ a)

theorem can_flatList
    {jobs : List Job}
    {a : Action}
    (hCan : (flatList jobs).Can a) :
    ∃ c ∈ chainsList jobs, c.Can a :=
  can_flatList_of_mem (fun _ _ => can_flat) hCan

theorem ready_flatList_of_mem
    {jobs : List Job}
    {t : FileTree}
    (hJobs : ∀ job ∈ jobs, ∀ u,
      t.KeepsDirectories u → job.flat.Ready u) :
    (flatList jobs).Ready t := by
  induction jobs generalizing t with
  | nil =>
      rw [flatList]
      exact .done [] t
  | cons job jobs ih =>
      rw [List.forall_mem_cons] at hJobs
      rw [flatList]
      apply Chain.ready_bind (hJobs.1 t (.refl t))
      intro first u hKeeps
      apply Chain.ready_map
      apply ih
      intro other hOther v hMore
      exact hJobs.2 other hOther v (hKeeps.trans hMore)

theorem ready_flat
    {job : Job}
    {t : FileTree}
    (hReady : ∀ c ∈ job.chains, c.Ready t) :
    job.flat.Ready t := by
  induction job using Job.induct generalizing t with
  | mk unit followers ih =>
      rw [chains, List.forall_mem_cons] at hReady
      rw [flat]
      apply Chain.ready_bind hReady.1
      intro report u hKeeps
      split
      · apply Chain.ready_map
        apply ready_flatList_of_mem
        intro job hJob v hMore
        apply ih job hJob
        intro c hMem
        have hChain : c ∈ chainsList followers := by
          rw [chainsList_eq_flatMap, List.mem_flatMap]
          exact ⟨job, hJob, hMem⟩
        exact (hReady.2 c hChain).of_keepsDirectories
          (hKeeps.trans hMore)
      · exact .done _ u

theorem ready_flatList
    {jobs : List Job}
    {t : FileTree}
    (hReady : ∀ c ∈ chainsList jobs, c.Ready t) :
    (flatList jobs).Ready t := by
  apply ready_flatList_of_mem
  intro job hJob u hKeeps
  apply ready_flat
  intro c hMem
  have hChain : c ∈ chainsList jobs := by
    rw [chainsList_eq_flatMap, List.mem_flatMap]
    exact ⟨job, hJob, hMem⟩
  exact (hReady c hChain).of_keepsDirectories hKeeps

variable {job : Job} {jobs : List Job} {t u : FileTree}

/- Jobs of sound units are sound. -/
theorem isSound_flat
    (hSound : ∀ c ∈ job.chains, c.IsSound t) :
    job.flat.IsSound t := by
  refine ⟨fun a hCan => ?_, ?_⟩
  · rcases can_flat hCan with ⟨c, hMem, hTakes⟩
    exact (hSound c hMem).plain a hTakes
  · exact ready_flat (fun c hMem => (hSound c hMem).ready)

theorem isSound_flatList
    (hSound : ∀ c ∈ chainsList jobs, c.IsSound t) :
    (flatList jobs).IsSound t := by
  refine ⟨fun a hCan => ?_, ?_⟩
  · rcases can_flatList hCan with ⟨c, hMem, hTakes⟩
    exact (hSound c hMem).plain a hTakes
  · exact ready_flatList (fun c hMem => (hSound c hMem).ready)

/- In the same trees, jobs report and do the same. -/
theorem runList_congr
    (hSound : ∀ c ∈ chainsList jobs, c.IsSound t)
    (hRooted : t.IsRooted)
    (hSame : t.Same u) :
    (runList jobs t).1 = (runList jobs u).1 ∧
      (runList jobs t).2.Same (runList jobs u).2 := by
  rw [← run_flatList, ← run_flatList]
  exact Chain.run_congr (isSound_flatList hSound) hRooted
    hSame

theorem keepsDirectories_run
    (job : Job)
    (t : FileTree) :
    t.KeepsDirectories (job.run t).2 := by
  rw [← run_flat]
  exact Chain.keepsDirectories_run _ t

theorem isRooted_run
    (hRooted : t.IsRooted)
    (job : Job) :
    (job.run t).2.IsRooted := by
  rw [← run_flat]
  exact Chain.isRooted_run hRooted _

theorem keepsDirectories_runList
    (jobs : List Job)
    (t : FileTree) :
    t.KeepsDirectories (runList jobs t).2 := by
  rw [← run_flatList]
  exact Chain.keepsDirectories_run _ t

theorem isRooted_runList
    (hRooted : t.IsRooted)
    (jobs : List Job) :
    (runList jobs t).2.IsRooted := by
  rw [← run_flatList]
  exact Chain.isRooted_run hRooted _

end Job

end Palimpsest
