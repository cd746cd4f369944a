import Mathlib.Data.List.Forall2
import Palimpsest.Proofs.Output.Task
import Palimpsest.Proofs.Output.Turns

/-
  What units promise while others take their turns.

  A chain fulfils a promise if its result is as promised
  whatever the others do between its actions, as long as they
  keep what the chain relies on.  A contract says which
  actions a unit may take, what it relies on, and what it
  promises of its report and of the tree in the end.  When
  each unit meets its contract and tolerates the actions of
  the others, every order of turns keeps all promises.

  Main declarations:
    * `Chain.Fulfils`
    * `Chain.fulfils_insideParent`
    * `Emitter.fulfils_roundTrip`
    * `Contract`
    * `Contract.isMetBy_of_offers`
    * `Contract.isMetBy_of_steps`
-/

namespace Palimpsest

------------------------------------------------------------
-- Lists Side By Side
------------------------------------------------------------

section SideBySide

variable {α β : Type} {R S : α → β → Prop}
variable {xs : List α} {ys front back : List β} {y : β}

/- What is related to a value in a list stands in its place. -/
theorem exists_split_of_forall₂
    (hAll : List.Forall₂ R xs (front ++ y :: back)) :
    ∃ before x after,
      xs = before ++ x :: after ∧
        List.Forall₂ R before front ∧ R x y ∧
          List.Forall₂ R after back := by
  induction front generalizing xs with
  | nil =>
      rcases List.forall₂_cons_right_iff.mp hAll with
        ⟨x, after, hHere, hBack, rfl⟩
      exact ⟨[], x, after, rfl, .nil, hHere, hBack⟩
  | cons z front ih =>
      rcases List.forall₂_cons_right_iff.mp hAll with
        ⟨x', rest, hFirst, hRest, rfl⟩
      rcases ih hRest with
        ⟨before, x, after, rfl, hFront, hHere, hBack⟩
      exact ⟨x' :: before, x, after, rfl,
        .cons hFirst hFront, hHere, hBack⟩

theorem forall₂_imp_of_mem
    (hImp : ∀ x ∈ xs, ∀ y, R x y → S x y)
    (hAll : List.Forall₂ R xs ys) :
    List.Forall₂ S xs ys := by
  have hBoth := (List.forall₂_and_left xs ys).mpr
    ⟨fun _ hMem => hMem, hAll⟩
  exact hBoth.imp (fun x y h => hImp x h.1 y h.2)

/- Lists of one length in front are related by themselves. -/
theorem forall₂_of_append
    {xs' : List α}
    {ys' : List β}
    (hLength : xs.length = ys.length)
    (hAll : List.Forall₂ R (xs ++ xs') (ys ++ ys')) :
    List.Forall₂ R xs ys ∧ List.Forall₂ R xs' ys' := by
  have hFirst := List.forall₂_take_append _ _ _ hAll
  have hRest := List.forall₂_drop_append _ _ _ hAll
  rw [List.take_left' hLength] at hFirst
  rw [List.drop_left' hLength] at hRest
  exact ⟨hFirst, hRest⟩

end SideBySide

------------------------------------------------------------
-- Promises Of Chains
------------------------------------------------------------

namespace Chain

variable {α β : Type} {c : Chain α} {t u : FileTree}
variable {relies : FileTree → FileTree → Prop}
variable {promises : α → FileTree → Prop}

/-
  Whatever the others do before each action of the chain and
  after the last one, as far as the chain relies on it, the
  result is as promised.
-/
inductive Fulfils
    (relies : FileTree → FileTree → Prop)
    (promises : α → FileTree → Prop) :
    Chain α → FileTree → Prop
where
| done
    {result : α}
    {t : FileTree}
    (hResult : ∀ u, relies t u → promises result u) :
    Fulfils relies promises (.done result) t
| step
    {c : Chain α}
    {a : Action}
    {next : a.Answer → Chain α}
    {t : FileTree}
    (hStep : c = step a next)
    (hNext : ∀ u,
      relies t u →
        Fulfils relies promises (next (a.perform u).1)
          (a.perform u).2) :
    Fulfils relies promises c t

theorem fulfils_done_iff {result : α} :
    (Chain.done result).Fulfils relies promises t ↔
      ∀ u, relies t u → promises result u := by
  constructor
  · intro hFulfils
    cases hFulfils with
    | done hResult =>
        exact hResult
    | step hStep _ =>
        exact absurd hStep (step_ne_done result _ _)
  · exact .done

theorem fulfils_step_iff
    {a : Action}
    {next : a.Answer → Chain α} :
    (step a next).Fulfils relies promises t ↔
      ∀ u, relies t u →
        (next (a.perform u).1).Fulfils relies promises
          (a.perform u).2 := by
  constructor
  · intro hFulfils
    generalize hChain : step a next = c at hFulfils
    cases hFulfils with
    | done _ =>
        exact absurd hChain.symm (step_ne_done _ a next)
    | @step _ b other _ hStep hNext =>
        have hEq := hChain.trans hStep
        cases a <;> cases b <;> cases hEq <;> exact hNext
  · exact .step rfl

/- What was fulfilled is so after more was done by others. -/
theorem Fulfils.of_relies
    (hTrans : ∀ t u v, relies t u → relies u v → relies t v)
    (hFulfils : c.Fulfils relies promises t)
    (hRelies : relies t u) :
    c.Fulfils relies promises u := by
  cases hFulfils with
  | done hResult =>
      exact .done
        (fun v hMore => hResult v (hTrans _ _ _ hRelies hMore))
  | step hStep hNext =>
      exact .step hStep
        (fun v hMore => hNext v (hTrans _ _ _ hRelies hMore))

/- Changing the result of a chain changes the promise. -/
theorem fulfils_map
    {f : α → β}
    {wanted : β → FileTree → Prop}
    (hFulfils : c.Fulfils relies
      (fun result => wanted (f result)) t) :
    (c.map f).Fulfils relies wanted t := by
  induction hFulfils with
  | done hResult =>
      exact .done hResult
  | step hStep _ ih =>
      rw [hStep, map, bind_step]
      exact .step rfl ih

/- What always holds is promised whatever the chain does. -/
theorem fulfils_of_forall
    (hPromises : ∀ result u, promises result u)
    (c : Chain α)
    (t : FileTree) :
    c.Fulfils relies promises t := by
  induction c using Chain.induct generalizing t with
  | done result =>
      exact .done (fun u _ => hPromises result u)
  | step a next ih =>
      exact .step rfl (fun u _ => ih _ _)

section Parent

variable {path : FilePath} {text : String}

/-
  Going on inside the directory of a file keeps a promise if
  what it needs outlasts the others and the making of this
  directory, and if a fault may be the result.
-/
theorem fulfils_insideParent
    {next : Chain (Except UnitError α)}
    {promises : Except UnitError α → FileTree → Prop}
    (holds : FileTree → Prop)
    (hStable : ∀ t u, holds t → relies t u → holds u)
    (hMake : ∀ parent t,
      path.parent? = some parent → holds t →
        holds (t.ensureDir parent).2)
    (hFault : ∀ fault u, promises (.error fault) u)
    (hNext : ∀ u, holds u → next.Fulfils relies promises u)
    (hNow : holds t) :
    (insideParent path next).Fulfils relies promises t := by
  unfold insideParent
  cases hPath : path.parent? with
  | none =>
      exact hNext t hNow
  | some parent =>
      dsimp only
      split
      · exact hNext t hNow
      · refine .step (a := .ensureDir parent) rfl ?_
        intro u hRelies
        have hMade := hMake parent u hPath
          (hStable t u hNow hRelies)
        dsimp only [Action.perform]
        cases (u.ensureDir parent).1 with
        | error fault =>
            exact .done (fun v _ => hFault _ v)
        | ok _ =>
            exact hNext _ hMade

/- A text that is written is held then. -/
theorem fulfils_writeText
    {promises : Except UnitError Unit → FileTree → Prop}
    (hFault : ∀ fault u, promises (.error fault) u)
    (hDone : ∀ u v,
      u.Holds path text → relies u v → promises (.ok ()) v)
    (t : FileTree) :
    (writeText path text).Fulfils relies promises t := by
  apply fulfils_insideParent (fun _ => True)
    (fun _ _ _ _ => trivial) (fun _ _ _ _ => trivial) hFault
    _ trivial
  intro u _
  refine .step (a := .write path text) rfl ?_
  intro v _
  dsimp only [Action.perform]
  cases hWrite : v.write path text with
  | mk answer w =>
      cases answer with
      | error fault =>
          exact .done (fun x _ => hFault _ x)
      | ok _ =>
          exact .done (fun x hRelies =>
            hDone w x (FileTree.holds_of_write hWrite) hRelies)

end Parent

end Chain

/-
  A round trip that succeeds has read a previous text, and the
  file holds the rendering of the tree that was prepared from
  that text.
-/
theorem Emitter.fulfils_roundTrip
    {e : Emitter}
    {f : Fragment}
    {source destination : FilePath}
    {relies : FileTree → FileTree → Prop}
    {promises : Except UnitError Summary → FileTree → Prop}
    {t : FileTree}
    (hFault : ∀ fault u, promises (.error fault) u)
    (hDone : ∀ u v w previous p,
      relies t u →
        u.readIfExists source = .ok previous →
          prepare source f previous = .ok p →
            v.Holds destination (e.render p.tree) →
              relies v w →
                promises
                  (.ok { p.summary with
                    checksum :=
                      some (Checksum.ofText (e.render p.tree))
                    written := true }) w) :
    (e.roundTrip f source destination).Fulfils relies promises
      t := by
  unfold roundTrip
  cases f.ensureUniqueSections with
  | error fault =>
      exact .done (fun u _ => hFault _ u)
  | ok _ =>
      refine .step (a := .read source) rfl ?_
      intro u hRead
      dsimp only [Action.perform]
      cases hPrevious : u.readIfExists source with
      | error fault =>
          exact .done (fun v _ => hFault _ v)
      | ok previous =>
          dsimp only [Except.mapError, Chain.bind]
          cases hPrepare : prepare source f previous with
          | error fault =>
              exact .done (fun v _ => hFault _ v)
          | ok p =>
              apply Chain.fulfils_map
              apply Chain.fulfils_writeText hFault
              intro v w hHolds hRelies
              exact hDone u v w previous p hRead hPrevious
                hPrepare hHolds hRelies

------------------------------------------------------------
-- Contracts
------------------------------------------------------------

/-
  What a unit may do, what it relies on while others act, and
  what it promises of its report and of the tree in the end.
-/
structure Contract where
  allows : Action → Prop
  relies : FileTree → FileTree → Prop
  promises : UnitReport → FileTree → Prop
  refl : ∀ t, relies t t
  trans : ∀ t u v, relies t u → relies u v → relies t v

namespace Contract

variable {k other : Contract} {c : Chain UnitReport}
variable {t u : FileTree} {a : Action}

/- The unit with the contract does and promises as it says. -/
structure IsMetBy
    (k : Contract)
    (t : FileTree)
    (c : Chain UnitReport) : Prop where
  allowed : ∀ a, c.Can a → k.allows a
  fulfilled : c.Fulfils k.relies k.promises t

/- No action of the other unit breaks what is relied on. -/
def Tolerates (k other : Contract) : Prop :=
  ∀ a, other.allows a → ∀ t, k.relies t (a.perform t).2

/- A contract that is met is met after others have acted. -/
theorem IsMetBy.of_relies
    (hMet : k.IsMetBy t c)
    (hRelies : k.relies t u) :
    k.IsMetBy u c :=
  ⟨hMet.allowed, hMet.fulfilled.of_relies k.trans hRelies⟩

/- It is met after an action of the unit itself. -/
theorem IsMetBy.next
    {next : a.Answer → Chain UnitReport}
    (hMet : k.IsMetBy t (Chain.step a next)) :
    k.IsMetBy (a.perform t).2 (next (a.perform t).1) := by
  refine ⟨fun b hCan => ?_, ?_⟩
  · exact hMet.allowed b
      (Chain.can_step_iff.mpr (.inr ⟨_, hCan⟩))
  · exact Chain.fulfils_step_iff.mp hMet.fulfilled t (k.refl t)

/- Once the unit is done, what was promised is so. -/
theorem IsMetBy.promise
    {report : UnitReport}
    (hMet : k.IsMetBy t (.done report)) :
    k.promises report t :=
  Chain.fulfils_done_iff.mp hMet.fulfilled t (k.refl t)

------------------------------------------------------------
-- Units That Meet Their Contracts
------------------------------------------------------------

variable {contracts : List Contract} {jobs : List Job}

/- No two units break what the other one relies on. -/
def AreTolerant (contracts : List Contract) : Prop :=
  contracts.Pairwise (fun k other =>
    k.Tolerates other ∧ other.Tolerates k)

/-
  When a unit has taken an action, all units meet their
  contracts still: this unit by what it has left to do, and
  the others because they tolerate the action.
-/
theorem isMetBy_of_offers
    {next : a.Answer → List Job}
    (hTolerant : AreTolerant contracts)
    (hOffers : Job.Offers jobs a next)
    (hMet : List.Forall₂ (fun k => k.IsMetBy t) contracts
      (Job.chainsList jobs)) :
    List.Forall₂ (fun k => k.IsMetBy (a.perform t).2) contracts
      (Job.chainsList (next (a.perform t).1)) := by
  rcases hOffers.exists_chain with
    ⟨front, unit, back, hNow, hNext⟩
  rw [hNow] at hMet
  rcases exists_split_of_forall₂ hMet with
    ⟨before, k, after, rfl, hFront, hHere, hBack⟩
  have hAllowed : k.allows a :=
    hHere.allowed a (Chain.can_step_iff.mpr (.inl rfl))
  unfold AreTolerant at hTolerant
  rw [List.pairwise_append, List.pairwise_cons] at hTolerant
  rcases hTolerant with ⟨_, ⟨hAfter, _⟩, hBefore⟩
  rw [hNext]
  refine List.rel_append
    (forall₂_imp_of_mem (fun other hMem c hOld => ?_) hFront)
    (.cons hHere.next
      (forall₂_imp_of_mem (fun other hMem c hOld => ?_) hBack))
  · exact hOld.of_relies
      ((hBefore other hMem k List.mem_cons_self).1 a hAllowed t)
  · exact hOld.of_relies ((hAfter other hMem).2 a hAllowed t)

/- So they do in whatever order they take their turns. -/
theorem isMetBy_of_steps
    {s s' : List Job × FileTree}
    (hTolerant : AreTolerant contracts)
    (hSteps : Relation.ReflTransGen Job.Step s s')
    (hMet : List.Forall₂ (fun k => k.IsMetBy s.2) contracts
      (Job.chainsList s.1)) :
    List.Forall₂ (fun k => k.IsMetBy s'.2) contracts
      (Job.chainsList s'.1) := by
  induction hSteps with
  | refl =>
      exact hMet
  | tail _ hStep ih =>
      rcases hStep with ⟨a, next, hOffers, rfl⟩
      exact isMetBy_of_offers hTolerant hOffers ih

end Contract

------------------------------------------------------------
-- Contracts For The Units Of A Pass
------------------------------------------------------------

section Pass

variable {e : Emitter} {units : List Fragment}
variable {t u : FileTree} {report : Report}
variable {contract : Task → Contract}

/- Each unit of a pass can be given a contract. -/
structure Task.AreBound
    (contract : Task → Contract)
    (e : Emitter)
    (units : List Fragment)
    (t : FileTree) : Prop where
  tolerant :
    Contract.AreTolerant
      ((Fragment.tasksList units).map contract)
  met : ∀ task ∈ Fragment.tasksList units,
    (contract task).IsMetBy t (task.chain e)

/- The contracts are met along every order of turns. -/
theorem Task.AreBound.isMetBy_of_steps
    {jobs : List Job}
    (hBound : AreBound contract e units t)
    (hSteps :
      Relation.ReflTransGen Job.Step (e.jobs units, t)
        (jobs, u)) :
    List.Forall₂ (fun task => (contract task).IsMetBy u)
      (Fragment.tasksList units) (Job.chainsList jobs) := by
  rw [← List.forall₂_map_left_iff
    (R := fun k : Contract => k.IsMetBy u)]
  apply Contract.isMetBy_of_steps hBound.tolerant hSteps
  rw [e.chainsList_jobs, List.forall₂_map_left_iff,
    List.forall₂_map_right_iff, List.forall₂_same]
  exact hBound.met

/- Each report of a pass is as some unit has promised. -/
theorem Emitter.Passes.exists_promise
    (hRun : e.Passes units t report u)
    (hBound : Task.AreBound contract e units t) :
    ∀ r ∈ report.units,
      ∃ task ∈ Fragment.tasksList units,
        (contract task).promises r u := by
  rcases hRun with ⟨done, hSteps, hDone⟩
  intro r hMem
  have hMet := hBound.isMetBy_of_steps hSteps
  rcases List.append_of_mem
      (Job.done_mem_of_outcomes? hDone r hMem) with
    ⟨front, back, hChains⟩
  rw [hChains] at hMet
  rcases exists_split_of_forall₂ hMet with
    ⟨before, task, after, hTasks, _, hHere, _⟩
  refine ⟨task, ?_, hHere.promise⟩
  rw [hTasks]
  exact List.mem_append_right _ List.mem_cons_self

/- What every action of the units keeps, a pass keeps. -/
theorem Emitter.Passes.keeps
    {R : FileTree → FileTree → Prop}
    (hRefl : ∀ t, R t t)
    (hTrans : ∀ t u v, R t u → R u v → R t v)
    (hRun : e.Passes units t report u)
    (hKeeps : ∀ task ∈ Fragment.tasksList units,
      ∀ a, task.Takes e a → ∀ t, R t (a.perform t).2) :
    R t u := by
  rcases hRun with ⟨done, hSteps, _⟩
  exact Job.keeps_of_steps hRefl hTrans hSteps
    (e.forall_mem_chainsList_jobs (fun task hTask a hCan =>
      hKeeps task hTask a (Task.takes_of_can hCan)))

end Pass

end Palimpsest
