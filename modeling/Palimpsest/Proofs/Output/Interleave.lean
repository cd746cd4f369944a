import Mathlib.Logic.Relation
import Palimpsest.Proofs.Output.Settle

/-
  Jobs whose units take turns.

  The units of jobs that run side by side take their actions
  in any order, except that each unit keeps its own order and
  the followers of a unit wait until it is done.  When no unit
  interferes with another one, every such interleaving ends
  with the reports and the files of the jobs done one after
  another, and each unit does what it does alone.

  Main declarations:
    * `Job.Offers`
    * `Job.Step`
    * `Job.outcomes?`
    * `Job.exists_steps_runList`
    * `Job.rounds`
    * `Chain.Independent`
    * `Job.interleaved_eq`
    * `Job.ranList`
    * `Job.runsAlone_runList`
-/

namespace Palimpsest

------------------------------------------------------------
-- Interleavings
------------------------------------------------------------

namespace Job

/-
  An action that a unit of the jobs may take next, and the
  jobs that are left after each answer to it.
-/
inductive Offers :
    List Job → (a : Action) → (a.Answer → List Job) → Prop
where
| unit
    {a : Action}
    {next : a.Answer → Chain UnitReport}
    {followers jobs : List Job} :
    Offers (.mk (Chain.step a next) followers :: jobs) a
      (fun answer => .mk (next answer) followers :: jobs)
| follower
    {report : UnitReport}
    {followers jobs : List Job}
    {a : Action}
    {next : a.Answer → List Job}
    (hSuccess : report.IsSuccess)
    (hFollower : Offers followers a next) :
    Offers (.mk (.done report) followers :: jobs) a
      (fun answer => .mk (.done report) (next answer) :: jobs)
| later
    {job : Job}
    {jobs : List Job}
    {a : Action}
    {next : a.Answer → List Job}
    (hLater : Offers jobs a next) :
    Offers (job :: jobs) a (fun answer => job :: next answer)

/- Some unit takes its next action. -/
def Step (s s' : List Job × FileTree) : Prop :=
  ∃ a next,
    Offers s.1 a next ∧
      s' = (next (a.perform s.2).1, (a.perform s.2).2)

mutual

/- The reports of a job, once it is done. -/
def outcome? : Job → Option (List UnitReport)
| .mk (.done report) followers =>
    if report.IsSuccess then
      (outcomes? followers).map (fun rest => report :: rest)
    else
      some [report]
| _ => none

/- The reports of jobs, once all of them are done. -/
def outcomes? : List Job → Option (List UnitReport)
| [] => some []
| job :: jobs =>
    (outcome? job).bind (fun first =>
      (outcomes? jobs).map (fun rest => first ++ rest))

end

variable {t u v : FileTree} {job : Job}
variable {jobs rest followers : List Job}
variable {reports : List UnitReport}
variable {s s' : List Job × FileTree}

theorem run_done_of_success
    {report : UnitReport}
    (hSuccess : report.IsSuccess)
    (followers : List Job)
    (t : FileTree) :
    (Job.mk (.done report) followers).run t =
      (report :: (runList followers t).1,
        (runList followers t).2) := by
  rw [run_mk]
  exact if_pos hSuccess

theorem run_done_of_failure
    {report : UnitReport}
    (hFailure : ¬ report.IsSuccess)
    (followers : List Job)
    (t : FileTree) :
    (Job.mk (.done report) followers).run t =
      ([report], t) := by
  rw [run_mk]
  exact if_neg hFailure

theorem runList_of_outcomes?_of_mem
    (hJobs : ∀ job ∈ jobs, ∀ reports t,
      job.outcome? = some reports → job.run t = (reports, t))
    (hDone : outcomes? jobs = some reports)
    (t : FileTree) :
    runList jobs t = (reports, t) := by
  induction jobs generalizing reports with
  | nil =>
      cases hDone
      rfl
  | cons job jobs ih =>
      rw [List.forall_mem_cons] at hJobs
      rw [outcomes?, Option.bind_eq_some_iff] at hDone
      rcases hDone with ⟨first, hFirst, hRest⟩
      rcases Option.map_eq_some_iff.mp hRest with
        ⟨others, hOthers, rfl⟩
      rw [runList_cons, hJobs.1 first t hFirst,
        ih hJobs.2 hOthers]

theorem run_of_outcome?
    (hDone : job.outcome? = some reports)
    (t : FileTree) :
    job.run t = (reports, t) := by
  induction job using Job.induct generalizing reports t with
  | mk unit followers ih =>
      cases unit with
      | done report =>
          rw [outcome?] at hDone
          split at hDone
          · rename_i hSuccess
            rcases Option.map_eq_some_iff.mp hDone with
              ⟨others, hOthers, rfl⟩
            rw [run_done_of_success hSuccess,
              runList_of_outcomes?_of_mem
                (fun job hJob _ t hOwn => ih job hJob hOwn t)
                hOthers]
          · rename_i hFailure
            cases hDone
            exact run_done_of_failure hFailure followers t
      | ensureDir path next =>
          cases hDone
      | read path next =>
          cases hDone
      | write path text next =>
          cases hDone
      | create path text next =>
          cases hDone

/- Jobs that are done change nothing. -/
theorem runList_of_outcomes?
    (hDone : outcomes? jobs = some reports)
    (t : FileTree) :
    runList jobs t = (reports, t) :=
  runList_of_outcomes?_of_mem
    (fun _ _ _ t hOwn => run_of_outcome? hOwn t) hDone t

------------------------------------------------------------
-- One Unit After Another
------------------------------------------------------------

theorem steps_unit
    (unit : Chain UnitReport)
    (followers jobs : List Job)
    (t : FileTree) :
    Relation.ReflTransGen Step
      (.mk unit followers :: jobs, t)
      (.mk (.done (unit.run t).1) followers :: jobs,
        (unit.run t).2) := by
  induction unit using Chain.induct generalizing t with
  | done report =>
      exact .refl
  | step a next ih =>
      rw [Chain.run_step]
      exact .head ⟨a, _, .unit, rfl⟩
        (ih (a.perform t).1 (a.perform t).2)

theorem steps_followers
    {report : UnitReport}
    (hSuccess : report.IsSuccess)
    (jobs : List Job)
    (hSteps : Relation.ReflTransGen Step s s') :
    Relation.ReflTransGen Step
      (.mk (.done report) s.1 :: jobs, s.2)
      (.mk (.done report) s'.1 :: jobs, s'.2) := by
  refine Relation.ReflTransGen.lift (p := Step)
    (fun s => (Job.mk (.done report) s.1 :: jobs, s.2)) ?_
    _ _ hSteps
  rintro x _ ⟨a, next, hOffers, rfl⟩
  exact ⟨a, _, .follower hSuccess hOffers, rfl⟩

theorem steps_later
    (job : Job)
    (hSteps : Relation.ReflTransGen Step s s') :
    Relation.ReflTransGen Step
      (job :: s.1, s.2) (job :: s'.1, s'.2) := by
  refine Relation.ReflTransGen.lift (p := Step)
    (fun s => (job :: s.1, s.2)) ?_ _ _ hSteps
  rintro x _ ⟨a, next, hOffers, rfl⟩
  exact ⟨a, _, .later hOffers, rfl⟩

theorem exists_steps_runList_of_mem
    (hJobs : ∀ job ∈ jobs, ∀ others t, ∃ done,
      done.outcome? = some (job.run t).1 ∧
        Relation.ReflTransGen Step (job :: others, t)
          (done :: others, (job.run t).2))
    (t : FileTree) :
    ∃ done,
      outcomes? done = some (runList jobs t).1 ∧
        Relation.ReflTransGen Step (jobs, t)
          (done, (runList jobs t).2) := by
  induction jobs generalizing t with
  | nil =>
      exact ⟨[], rfl, .refl⟩
  | cons job jobs ih =>
      rw [List.forall_mem_cons] at hJobs
      rcases hJobs.1 jobs t with ⟨first, hFirst, hBefore⟩
      rcases ih hJobs.2 (job.run t).2 with
        ⟨others, hOthers, hAfter⟩
      rw [runList_cons]
      refine ⟨first :: others, ?_, ?_⟩
      · rw [outcomes?, hFirst, hOthers]
        rfl
      · exact hBefore.trans (steps_later first hAfter)

theorem exists_steps_run
    (job : Job)
    (others : List Job)
    (t : FileTree) :
    ∃ done,
      done.outcome? = some (job.run t).1 ∧
        Relation.ReflTransGen Step (job :: others, t)
          (done :: others, (job.run t).2) := by
  induction job using Job.induct generalizing others t with
  | mk unit followers ih =>
      have hUnit := steps_unit unit followers others t
      rw [run_mk]
      split
      · rename_i hSuccess
        rcases exists_steps_runList_of_mem ih (unit.run t).2
          with ⟨done, hDone, hSteps⟩
        refine ⟨.mk (.done (unit.run t).1) done, ?_, ?_⟩
        · rw [outcome?, if_pos hSuccess, hDone]
          rfl
        · exact hUnit.trans
            (steps_followers hSuccess others hSteps)
      · rename_i hFailure
        refine ⟨.mk (.done (unit.run t).1) followers, ?_,
          hUnit⟩
        rw [outcome?, if_neg hFailure]

/-
  Doing jobs one after another is an interleaving.  So an
  interleaving that was begun can always be brought to an end.
-/
theorem exists_steps_runList
    (jobs : List Job)
    (t : FileTree) :
    ∃ done,
      outcomes? done = some (runList jobs t).1 ∧
        Relation.ReflTransGen Step (jobs, t)
          (done, (runList jobs t).2) :=
  exists_steps_runList_of_mem
    (fun job _ => job.exists_steps_run) t

------------------------------------------------------------
-- Rounds
------------------------------------------------------------

mutual

/- The unit of a job that has its turn takes one action. -/
def turn : Job → FileTree → Job × FileTree
| .mk (.done report) followers, t =>
    if report.IsSuccess then
      (.mk (.done report) (turnList followers t).1,
        (turnList followers t).2)
    else
      (.mk (.done report) followers, t)
| .mk (.ensureDir path next) followers, t =>
    (.mk (next (t.ensureDir path).1) followers,
      (t.ensureDir path).2)
| .mk (.read path next) followers, t =>
    (.mk (next (t.readIfExists path)) followers, t)
| .mk (.write path text next) followers, t =>
    (.mk (next (t.write path text).1) followers,
      (t.write path text).2)
| .mk (.create path text next) followers, t =>
    (.mk (next (t.create path text).1) followers,
      (t.create path text).2)

/- Each unit that has its turn takes one action, in order. -/
def turnList : List Job → FileTree → List Job × FileTree
| [], t => ([], t)
| job :: jobs, t =>
    ((turn job t).1 :: (turnList jobs (turn job t).2).1,
      (turnList jobs (turn job t).2).2)

end

/- The units of jobs take turns for a number of rounds. -/
def rounds :
    Nat → List Job × FileTree → List Job × FileTree
| 0, s => s
| n + 1, s => rounds n (turnList s.1 s.2)

theorem steps_turnList_of_mem
    (hJobs : ∀ job ∈ jobs, ∀ others t,
      Relation.ReflTransGen Step (job :: others, t)
        ((turn job t).1 :: others, (turn job t).2))
    (t : FileTree) :
    Relation.ReflTransGen Step (jobs, t) (turnList jobs t) := by
  induction jobs generalizing t with
  | nil =>
      exact .refl
  | cons job jobs ih =>
      rw [List.forall_mem_cons] at hJobs
      rw [turnList]
      exact (hJobs.1 jobs t).trans
        (steps_later (turn job t).1 (ih hJobs.2 _))

theorem steps_turn
    (job : Job)
    (others : List Job)
    (t : FileTree) :
    Relation.ReflTransGen Step (job :: others, t)
      ((turn job t).1 :: others, (turn job t).2) := by
  induction job using Job.induct generalizing others t with
  | mk unit followers ih =>
      cases unit with
      | done report =>
          rw [turn]
          split
          · rename_i hSuccess
            exact steps_followers hSuccess others
              (steps_turnList_of_mem ih t)
          · exact .refl
      | ensureDir path next =>
          exact .single ⟨_, _, .unit (a := .ensureDir path),
            rfl⟩
      | read path next =>
          exact .single ⟨_, _, .unit (a := .read path), rfl⟩
      | write path text next =>
          exact .single ⟨_, _, .unit (a := .write path text),
            rfl⟩
      | create path text next =>
          exact .single ⟨_, _, .unit (a := .create path text),
            rfl⟩

/- Taking turns is an interleaving. -/
theorem steps_rounds
    (n : Nat)
    (s : List Job × FileTree) :
    Relation.ReflTransGen Step s (rounds n s) := by
  induction n generalizing s with
  | zero =>
      exact .refl
  | succ n ih =>
      exact (steps_turnList_of_mem
        (fun job _ => job.steps_turn) s.2).trans (ih _)

end Job

------------------------------------------------------------
-- Units That Do Not Interfere
------------------------------------------------------------

namespace Chain

variable {α : Type} {c d : Chain α} {t u : FileTree}
variable {chains front back : List (Chain α)}

/- No action of one chain interferes with the other chain. -/
def Apart (c d : Chain α) : Prop :=
  ∀ a b, c.Can a → d.Can b → a.Apart b

/-
  Chains that can be run side by side: they do not interfere
  with one another, and each is sound by itself.
-/
structure Independent
    (chains : List (Chain α))
    (t : FileTree) : Prop where
  apart : chains.Pairwise Apart
  sound : ∀ c ∈ chains, c.IsSound t
  rooted : t.IsRooted

namespace Independent

theorem of_keepsDirectories
    (hIndependent : Independent chains t)
    (hKeeps : t.KeepsDirectories u)
    (hRooted : u.IsRooted) :
    Independent chains u :=
  ⟨hIndependent.apart,
    fun c hMem =>
      (hIndependent.sound c hMem).of_keepsDirectories hKeeps,
    hRooted⟩

theorem of_sublist
    (hIndependent : Independent chains t)
    (hSublist : front.Sublist chains) :
    Independent front t :=
  ⟨hIndependent.apart.sublist hSublist,
    fun c hMem =>
      hIndependent.sound c (hSublist.subset hMem),
    hIndependent.rooted⟩

/- What one of them does leaves the chains independent. -/
theorem perform
    {a : Action}
    {next : a.Answer → Chain α}
    (hIndependent :
      Independent (front ++ step a next :: back) t) :
    Independent (front ++ next (a.perform t).1 :: back)
      (a.perform t).2 := by
  have hKeeps := Action.keepsDirectories_perform a t
  rcases hIndependent with ⟨hApart, hSound, hRooted⟩
  rw [List.pairwise_append, List.pairwise_cons] at hApart
  rw [List.forall_mem_append, List.forall_mem_cons] at hSound
  rcases hApart with ⟨hFront, ⟨hHere, hBack⟩, hAcross⟩
  rcases hSound with ⟨hBefore, hNow, hAfter⟩
  have hLater {b : Action}
      (hCan : (next (a.perform t).1).Can b) :
      (step a next).Can b :=
    can_step_iff.mpr (.inr ⟨_, hCan⟩)
  refine ⟨?_, ?_, Action.isRooted_perform hRooted a⟩
  · rw [List.pairwise_append, List.pairwise_cons]
    refine ⟨hFront, ⟨?_, hBack⟩, ?_⟩
    · intro d hMem b other hCan
      exact hHere d hMem b other (hLater hCan)
    · intro c hMem d hOther
      rcases List.mem_cons.mp hOther with rfl | hOther
      · intro b other hCan hOwn
        exact hAcross c hMem (step a next)
          List.mem_cons_self b other hCan (hLater hOwn)
      · exact hAcross c hMem d
          (List.mem_cons_of_mem _ hOther)
  · rw [List.forall_mem_append, List.forall_mem_cons]
    exact ⟨fun c hMem =>
        (hBefore c hMem).of_keepsDirectories hKeeps,
      hNow.rest,
      fun c hMem =>
        (hAfter c hMem).of_keepsDirectories hKeeps⟩

end Independent

end Chain

namespace Job

variable {t u v : FileTree} {job : Job} {a : Action}
variable {jobs rest : List Job} {next : a.Answer → List Job}
variable {reports : List UnitReport}
variable {s s' : List Job × FileTree}

/- What is offered is the next action of one of the units. -/
theorem Offers.exists_chain (hOffers : Offers jobs a next) :
    ∃ front unit back,
      chainsList jobs = front ++ Chain.step a unit :: back ∧
        ∀ answer,
          chainsList (next answer) =
            front ++ unit answer :: back := by
  induction hOffers with
  | @unit a unit followers jobs =>
      exact ⟨[], unit, chainsList followers ++ chainsList jobs,
        rfl, fun _ => rfl⟩
  | @follower report followers jobs a next _ _ ih =>
      rcases ih with ⟨front, unit, back, hNow, hNext⟩
      refine ⟨.done report :: front, unit,
        back ++ chainsList jobs, ?_, fun answer => ?_⟩
      · rw [chainsList, chains, hNow]
        simp
      · rw [chainsList, chains, hNext]
        simp
  | @later job jobs a next _ ih =>
      rcases ih with ⟨front, unit, back, hNow, hNext⟩
      refine ⟨job.chains ++ front, unit, back, ?_,
        fun answer => ?_⟩
      · rw [chainsList, hNow, List.append_assoc]
      · rw [chainsList, hNext, List.append_assoc]

theorem Offers.independent
    (hOffers : Offers jobs a next)
    (hIndependent : Chain.Independent (chainsList jobs) t) :
    Chain.Independent (chainsList (next (a.perform t).1))
      (a.perform t).2 := by
  rcases hOffers.exists_chain with
    ⟨front, unit, back, hNow, hNext⟩
  rw [hNow] at hIndependent
  rw [hNext]
  exact hIndependent.perform

/- The same reports, and the same nodes at all places. -/
def Agree
    (x y : List UnitReport × FileTree) : Prop :=
  x.1 = y.1 ∧ x.2.Same y.2

theorem Agree.refl
    (x : List UnitReport × FileTree) :
    Agree x x :=
  ⟨rfl, .refl _⟩

theorem Agree.trans
    {x y z : List UnitReport × FileTree}
    (hFirst : Agree x y)
    (hSecond : Agree y z) :
    Agree x z :=
  ⟨hFirst.1.trans hSecond.1, hFirst.2.trans hSecond.2⟩

/- Jobs go on alike after a job that ended alike. -/
theorem Agree.cons
    {other : Job}
    {more : List Job}
    (hJob : (job.run t).1 = (other.run u).1)
    (hJobs : Agree (runList jobs (job.run t).2)
      (runList more (other.run u).2)) :
    Agree (runList (job :: jobs) t)
      (runList (other :: more) u) := by
  rw [runList_cons, runList_cons, hJob]
  refine ⟨?_, hJobs.2⟩
  dsimp only
  rw [hJobs.1]

/-
  When a directory was made, its followers have their turn in
  front of the later jobs.  These only see that the followers
  ended alike.
-/
theorem Agree.of_followers
    {report : UnitReport}
    {followers more : List Job}
    (hSuccess : report.IsSuccess)
    (hIndependent : Chain.Independent
      (chainsList (Job.mk (.done report) followers :: jobs)) t)
    (hFollowers : Agree (runList more u)
      (runList followers t)) :
    Agree (runList (Job.mk (.done report) more :: jobs) u)
      (runList (Job.mk (.done report) followers :: jobs) t) := by
  have hRooted :=
    isRooted_runList hIndependent.rooted followers
  have hJobs : Chain.Independent (chainsList jobs) t :=
    hIndependent.of_sublist (List.sublist_append_right _ _)
  have hCongr := runList_congr
    (hJobs.of_keepsDirectories
      (keepsDirectories_runList followers t) hRooted).sound
    hRooted hFollowers.2.symm
  apply Agree.cons
  · rw [run_done_of_success hSuccess,
      run_done_of_success hSuccess, hFollowers.1]
  · rw [run_done_of_success hSuccess,
      run_done_of_success hSuccess]
    exact ⟨hCongr.1.symm, hCongr.2.symm⟩

/- A job commutes with an action that later jobs offer. -/
theorem Offers.run_comm
    (hOffers : Offers jobs a next)
    (hIndependent :
      Chain.Independent (chainsList (job :: jobs)) t) :
    (job.run (a.perform t).2).1 = (job.run t).1 ∧
      (job.run (a.perform t).2).2.Same
          (a.perform (job.run t).2).2 ∧
        (a.perform (job.run t).2).1 = (a.perform t).1 := by
  rcases hOffers.exists_chain with
    ⟨front, unit, back, hNow, _⟩
  have hMem : Chain.step a unit ∈ chainsList jobs := by
    rw [hNow]
    simp
  have hUnit := hIndependent.sound _
    (List.mem_append_right job.chains hMem)
  have hFirst : Chain.Independent job.chains t :=
    hIndependent.of_sublist (List.sublist_append_left _ _)
  have hApart : ∀ b, job.flat.Can b → b.Apart a := by
    intro b hCan
    rcases can_flat hCan with ⟨c, hChain, hTakes⟩
    exact (List.pairwise_append.mp hIndependent.apart).2.2
      c hChain _ hMem b a hTakes (.now rfl)
  have hComm := Chain.run_comm hApart
    (isSound_flat hFirst.sound) hUnit.isPlain
    hIndependent.rooted hUnit.isReady
  rw [run_flat, run_flat] at hComm
  exact hComm

/-
  Taking an action that is offered first makes no difference.
  A unit in front of the one that takes it commutes with the
  action, so the action can be taken after it as well.
-/
theorem Offers.agree
    (hOffers : Offers jobs a next)
    (hIndependent : Chain.Independent (chainsList jobs) t) :
    Agree (runList (next (a.perform t).1) (a.perform t).2)
      (runList jobs t) := by
  induction hOffers generalizing t with
  | @unit a unit followers jobs =>
      have hRun :
          (Job.mk (unit (a.perform t).1) followers).run
              (a.perform t).2 =
            (Job.mk (Chain.step a unit) followers).run t := by
        rw [run_mk, run_mk, Chain.run_step]
      rw [runList_cons, runList_cons, hRun]
      exact .refl _
  | @follower report followers jobs a next hSuccess _ ih =>
      apply Agree.of_followers hSuccess hIndependent
      exact ih (hIndependent.of_sublist
        ((List.sublist_cons_self _ _).trans
          (List.sublist_append_left _ _)))
  | @later job jobs a next hOffers ih =>
      have hComm := hOffers.run_comm hIndependent
      have hAfter :
          Chain.Independent (chainsList jobs) (job.run t).2 :=
        (hIndependent.of_sublist
          (List.sublist_append_right _ _)).of_keepsDirectories
            (keepsDirectories_run job t)
            (isRooted_run hIndependent.rooted job)
      have hLater := ih hAfter
      have hLeft := hOffers.independent hAfter
      rw [hComm.2.2] at hLater hLeft
      have hCongr := runList_congr hLeft.sound hLeft.rooted
        hComm.2.1.symm
      exact .cons hComm.1
        (.trans ⟨hCongr.1.symm, hCongr.2.symm⟩ hLater)

/- Along an interleaving, what is left to do ends alike. -/
theorem agree_of_steps
    (hSteps : Relation.ReflTransGen Step s s')
    (hIndependent :
      Chain.Independent (chainsList s.1) s.2) :
    Chain.Independent (chainsList s'.1) s'.2 ∧
      Agree (runList s'.1 s'.2) (runList s.1 s.2) := by
  induction hSteps with
  | refl =>
      exact ⟨hIndependent, .refl _⟩
  | tail _ hStep ih =>
      rcases hStep with ⟨a, next, hOffers, rfl⟩
      exact ⟨hOffers.independent ih.1,
        (hOffers.agree ih.1).trans ih.2⟩

/-
  Every interleaving of independent units ends with the
  reports and the files of the jobs one after another.
-/
theorem interleaved_eq
    (hSteps :
      Relation.ReflTransGen Step (jobs, t) (rest, v))
    (hDone : outcomes? rest = some reports)
    (hIndependent : Chain.Independent (chainsList jobs) t) :
    Agree (reports, v) (runList jobs t) := by
  have hAgree := (agree_of_steps hSteps hIndependent).2
  rw [runList_of_outcomes? hDone] at hAgree
  exact hAgree

------------------------------------------------------------
-- What Each Unit Does Alone
------------------------------------------------------------

mutual

/-
  The units of a job that get their turn: all but those that
  follow a unit that fails.  Whether a unit fails is told by
  running it alone.
-/
def ran (t : FileTree) : Job → List (Chain UnitReport)
| .mk unit followers =>
    unit ::
      (if (unit.run t).1.IsSuccess then
        ranList t followers
      else
        [])

/- The units of jobs that get their turn. -/
def ranList
    (t : FileTree) : List Job → List (Chain UnitReport)
| [] => []
| job :: jobs => ran t job ++ ranList t jobs

end

/-
  The reports are those of the units when each runs alone;
  wherever a unit looks, the files are those that it leaves;
  and no other units have changed anything.
-/
structure RunsAlone
    (t v : FileTree)
    (units : List (Chain UnitReport))
    (x : List UnitReport × FileTree) : Prop where
  reports : x.1 = units.map (fun c => (c.run t).1)
  files : ∀ c ∈ units, ∀ a,
    c.Can a → a.Alike (c.run t).2 x.2
  others : ∀ place,
    (∀ c ∈ units, ∀ a, c.Can a → ∀ n, ¬ a.Puts place n) →
      x.2.at? place = v.at? place

theorem RunsAlone.append
    {first second : List (Chain UnitReport)}
    {x y : List UnitReport × FileTree}
    (hFirst : RunsAlone t v first x)
    (hSecond : RunsAlone t x.2 second y)
    (hKept : ∀ c ∈ first, ∀ a, c.Can a → a.Alike x.2 y.2) :
    RunsAlone t v (first ++ second) (x.1 ++ y.1, y.2) := by
  refine ⟨?_, ?_, ?_⟩
  · dsimp only
    rw [hFirst.reports, hSecond.reports, List.map_append]
  · intro c hMem a hCan
    rcases List.mem_append.mp hMem with hOld | hNew
    · exact (hFirst.files c hOld a hCan).trans
        (hKept c hOld a hCan)
    · exact hSecond.files c hNew a hCan
  · intro place hNever
    rw [List.forall_mem_append] at hNever
    exact (hSecond.others place hNever.2).trans
      (hFirst.others place hNever.1)

theorem ranList_sublist_of_mem
    (hJobs : ∀ job ∈ jobs, (job.ran t).Sublist job.chains) :
    (ranList t jobs).Sublist (chainsList jobs) := by
  induction jobs with
  | nil =>
      exact .refl _
  | cons job jobs ih =>
      rw [List.forall_mem_cons] at hJobs
      rw [ranList, chainsList]
      exact hJobs.1.append (ih hJobs.2)

theorem ran_sublist
    (t : FileTree)
    (job : Job) :
    (job.ran t).Sublist job.chains := by
  induction job using Job.induct with
  | mk unit followers ih =>
      rw [ran, chains]
      apply List.Sublist.cons_cons
      split
      · exact ranList_sublist_of_mem ih
      · exact List.nil_sublist _

theorem ranList_sublist
    (t : FileTree)
    (jobs : List Job) :
    (ranList t jobs).Sublist (chainsList jobs) :=
  ranList_sublist_of_mem (fun job _ => job.ran_sublist t)

/- A run leaves all alike where a unit apart from it looks. -/
theorem alike_run
    {β : Type}
    {chains : List (Chain UnitReport)}
    {c : Chain UnitReport}
    {whole : Chain β}
    (hTakes : ∀ b, whole.Can b → ∃ d ∈ chains, d.Can b)
    (hPlain : ∀ d ∈ chains, ∀ b, d.Can b → b.IsPlain)
    (hApart : ∀ d ∈ chains, c.Apart d)
    (hCan : c.Can a)
    (t : FileTree) :
    a.Alike t (whole.run t).2 := by
  apply Chain.run_keeps (R := a.Alike) (Action.Alike.refl a)
    (fun _ _ _ => Action.Alike.trans)
  intro b hWhole u
  rcases hTakes b hWhole with ⟨d, hMem, hOther⟩
  exact (hApart d hMem a b hCan hOther).1.alike
    (hPlain d hMem b hOther) u

/- Every unit finds a tree as if it were run alone. -/
structure FindsAlone
    (chains : List (Chain UnitReport))
    (t u : FileTree) : Prop where
  alone : Chain.Independent chains t
  found : Chain.Independent chains u
  alike : ∀ c ∈ chains, ∀ a, c.Can a → a.Alike t u

section FindsAlone

variable {first second : List (Chain UnitReport)}
variable {β : Type} {whole : Chain β}

theorem FindsAlone.of_sublist
    (hFinds : FindsAlone second t u)
    (hSublist : first.Sublist second) :
    FindsAlone first t u :=
  ⟨hFinds.alone.of_sublist hSublist,
    hFinds.found.of_sublist hSublist,
    fun c hMem => hFinds.alike c (hSublist.subset hMem)⟩

/- Later units find it so after the earlier ones have run. -/
theorem FindsAlone.after
    (hFinds : FindsAlone (first ++ second) t u)
    (hTakes : ∀ b, whole.Can b → ∃ d ∈ first, d.Can b) :
    FindsAlone second t (whole.run u).2 := by
  have hFirst := hFinds.of_sublist
    (List.sublist_append_left first second)
  have hSecond := hFinds.of_sublist
    (List.sublist_append_right first second)
  have hApart :=
    (List.pairwise_append.mp hFinds.found.apart).2.2
  refine ⟨hSecond.alone,
    hSecond.found.of_keepsDirectories
      (Chain.keepsDirectories_run whole u)
      (Chain.isRooted_run hFirst.found.rooted whole), ?_⟩
  intro c hMem a hCan
  apply (hSecond.alike c hMem a hCan).trans
  apply alike_run hTakes
    (fun d hOther => (hFirst.found.sound d hOther).plain) _
    hCan
  intro d hOther b other hOwn hTaken
  exact (hApart d hOther c hMem other b hTaken hOwn).symm

/- What earlier units look at is left alike by later ones. -/
theorem FindsAlone.kept
    (hFinds : FindsAlone (first ++ second) t u)
    (hTakes : ∀ b, whole.Can b → ∃ d ∈ second, d.Can b)
    {c : Chain UnitReport}
    (hMem : c ∈ first)
    (hCan : c.Can a)
    (v : FileTree) :
    a.Alike v (whole.run v).2 := by
  have hSecond := hFinds.of_sublist
    (List.sublist_append_right first second)
  have hApart :=
    (List.pairwise_append.mp hFinds.found.apart).2.2
  exact alike_run hTakes
    (fun d hOther => (hSecond.found.sound d hOther).plain)
    (hApart c hMem) hCan v

theorem runsAlone_unit
    {c : Chain UnitReport}
    (hFinds : FindsAlone [c] t u) :
    RunsAlone t u [c] ([(c.run u).1], (c.run u).2) := by
  have hMem : c ∈ [c] := List.mem_cons_self
  have hRun := Chain.run_alike (hFinds.alone.sound c hMem)
    (hFinds.found.sound c hMem) hFinds.alone.rooted
    hFinds.found.rooted (hFinds.alike c hMem)
  refine ⟨?_, ?_, ?_⟩
  · rw [List.map_singleton, hRun.1]
  · intro d hOther a hCan
    rw [List.mem_singleton] at hOther
    subst hOther
    exact (hFinds.alike d hMem a hCan).of_changedAlike hRun.2
  · intro place hNever
    exact Chain.at?_run (hFinds.found.sound c hMem).plain
      (hNever c hMem) u

theorem runsAlone_runList_of_mem
    (hJobs : ∀ job ∈ jobs, ∀ u,
      FindsAlone job.chains t u →
        RunsAlone t u (job.ran t) (job.run u))
    (hFinds : FindsAlone (chainsList jobs) t u) :
    RunsAlone t u (ranList t jobs) (runList jobs u) := by
  induction jobs generalizing u with
  | nil =>
      exact ⟨rfl,
        fun c hMem => absurd hMem List.not_mem_nil,
        fun _ _ => rfl⟩
  | cons job jobs ih =>
      rw [List.forall_mem_cons] at hJobs
      rw [chainsList] at hFinds
      have hAfter :
          FindsAlone (chainsList jobs) t (job.flat.run u).2 :=
        hFinds.after (fun b hCan => can_flat hCan)
      rw [run_flat] at hAfter
      have hOwn := hFinds.of_sublist
        (List.sublist_append_left job.chains _)
      rw [ranList, runList_cons]
      apply (hJobs.1 u hOwn).append (ih hJobs.2 hAfter)
      intro c hMem a hCan
      rw [← run_flatList]
      exact hFinds.kept (fun b hTakes => can_flatList hTakes)
        ((job.ran_sublist t).subset hMem) hCan _

theorem runsAlone_run
    (hFinds : FindsAlone job.chains t u) :
    RunsAlone t u (job.ran t) (job.run u) := by
  induction job using Job.induct generalizing u with
  | mk unit followers ih =>
      rw [chains] at hFinds
      have hSplit :
          FindsAlone ([unit] ++ chainsList followers) t u :=
        hFinds
      have hUnit := runsAlone_unit
        (hSplit.of_sublist (List.sublist_append_left _ _))
      have hReport : (unit.run u).1 = (unit.run t).1 :=
        (List.cons.inj hUnit.reports).1
      rw [hReport] at hUnit
      rw [run_mk, ran, hReport]
      split
      · have hAfter :
            FindsAlone (chainsList followers) t
              (unit.run u).2 :=
          hSplit.after
            (fun b hCan => ⟨unit, List.mem_cons_self, hCan⟩)
        apply hUnit.append (runsAlone_runList_of_mem ih hAfter)
        intro c hMem a hCan
        rw [← run_flatList]
        exact hSplit.kept (fun b hTakes => can_flatList hTakes)
          hMem hCan _
      · exact hUnit

/-
  Jobs whose units do not interfere report of each unit what
  it reports alone, and they leave the files of each unit as
  it leaves them alone.
-/
theorem runsAlone_runList
    (hIndependent : Chain.Independent (chainsList jobs) t) :
    RunsAlone t t (ranList t jobs) (runList jobs t) := by
  apply runsAlone_runList_of_mem
    (fun job _ u hFinds => runsAlone_run hFinds)
  exact ⟨hIndependent, hIndependent,
    fun _ _ a _ => Action.Alike.refl a t⟩

end FindsAlone

end Job

end Palimpsest
