import Palimpsest.Output.Report

/-
  This file defines chains: what a unit does to the file tree,
  step by step.

  A chain is either done or starts with one step on the file
  tree and goes on as the answer to that step says.  Steps are
  atomic, so chains of different units can be interleaved;
  running a chain takes its steps one after another.

  Key definitions include:
    * `Palimpsest.Chain`
    * `Palimpsest.Chain.bind`
    * `Palimpsest.Chain.run`
    * `Palimpsest.Chain.writeText`
    * `Palimpsest.Chain.touch`
-/

namespace Palimpsest

------------------------------------------------------------
-- Chains
------------------------------------------------------------

/- A chain of steps on the file tree that ends in a result. -/
inductive Chain (α : Type) where
| done
    (result : α)
| ensureDir
    (path : FilePath)
    (next : Except FileFault Unit → Chain α)
| read
    (path : FilePath)
    (next : Except FileFault (Option String) → Chain α)
| write
    (path : FilePath)
    (text : String)
    (next : Except FileFault Unit → Chain α)
| create
    (path : FilePath)
    (text : String)
    (next : Except FileFault Bool → Chain α)

namespace Chain

variable {α β : Type}

/- Go on with another chain when one is done. -/
def bind : Chain α → (α → Chain β) → Chain β
| .done a, f => f a
| .ensureDir path next, f =>
    .ensureDir path (fun answer => (next answer).bind f)
| .read path next, f =>
    .read path (fun answer => (next answer).bind f)
| .write path text next, f =>
    .write path text (fun answer => (next answer).bind f)
| .create path text next, f =>
    .create path text (fun answer => (next answer).bind f)

/- Change the result of a chain. -/
def map
    (f : α → β)
    (c : Chain α) : Chain β :=
  c.bind (fun a => .done (f a))

/- Take the steps of a chain one after another. -/
def run : Chain α → FileTree → α × FileTree
| .done a, t => (a, t)
| .ensureDir path next, t =>
    (next (t.ensureDir path).1).run (t.ensureDir path).2
| .read path next, t =>
    (next (t.readIfExists path)).run t
| .write path text next, t =>
    (next (t.write path text).1).run (t.write path text).2
| .create path text next, t =>
    (next (t.create path text).1).run (t.create path text).2

/- Running a chain that goes on with another. -/
theorem run_bind
    (c : Chain α)
    (f : α → Chain β)
    (t : FileTree) :
    (c.bind f).run t =
      (f (c.run t).1).run (c.run t).2 := by
  induction c generalizing t with
  | done a =>
      rfl
  | ensureDir path next ih =>
      exact ih _ _
  | read path next ih =>
      exact ih _ _
  | write path text next ih =>
      exact ih _ _
  | create path text next ih =>
      exact ih _ _

------------------------------------------------------------
-- Steps With The Faults Of Units
------------------------------------------------------------

/- Read the text of a file, if there is such a file. -/
def readText
    (path : FilePath) :
    Chain (Except UnitError (Option String)) :=
  .read path (fun answer =>
    .done (answer.mapError (UnitError.read path)))

/- Make a directory with all that leads to it. -/
def makeDirs
    (path : FilePath) : Chain (Except UnitError Unit) :=
  .ensureDir path (fun answer =>
    .done (answer.mapError (UnitError.createDir path)))

/-
  Make the directory that a file is in and go on.  A file
  without a directory of its own needs none.
-/
def insideParent
    (path : FilePath)
    (next : Chain (Except UnitError α)) :
    Chain (Except UnitError α) :=
  match path.parent? with
  | none => next
  | some parent =>
      if parent.text = "" then
        next
      else
        (makeDirs parent).bind (fun answer =>
          match answer with
          | .error e => .done (.error e)
          | .ok () => next)

/- Write a text to a file, in place of what it held. -/
def writeText
    (path : FilePath)
    (text : String) : Chain (Except UnitError Unit) :=
  insideParent path
    (.write path text (fun answer =>
      .done (answer.mapError (UnitError.write path))))

/-
  Write a text to a new file.  The result says whether there
  was nothing at its place before.
-/
def touch
    (path : FilePath)
    (text : String) : Chain (Except UnitError Bool) :=
  insideParent path
    (.create path text (fun answer =>
      .done (answer.mapError (UnitError.write path))))

end Chain

end Palimpsest
