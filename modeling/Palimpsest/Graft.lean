import Palimpsest.Fragment.Visit
import Palimpsest.Table

/-
  This file defines how recovered sections are put back into a
  fragment tree.

  Every section of the tree whose id was recovered gets the
  recovered lines; if an id was recovered more than once, its
  last occurrence counts.  The recovered ids that the tree
  does not have are reported as orphaned.

  The recovered lines wait in a table by id.  A walk over the
  tree takes out those that it has a section for, and what is
  left in the end is orphaned.

  Key definitions include:
    * `Palimpsest.Graft.lastContents?`
    * `Palimpsest.Graft.waiting`
    * `Palimpsest.Graft.claim`
    * `Palimpsest.graftInPlace`
    * `Palimpsest.Graft`
    * `Palimpsest.graft`
-/

namespace Palimpsest

------------------------------------------------------------
-- Recovered Lines
------------------------------------------------------------

namespace Graft

/- The lines of the last recovered section with an id. -/
def lastContents?
    (recovered : List Section)
    (id : SectionId) : Option (List String) :=
  (recovered.reverse.find? (fun s => s.id = id)).map
    (fun s => s.contents)

/- A section with the lines recovered for its id, if any. -/
def restore
    (recovered : List Section)
    (s : Section) : Section :=
  match lastContents? recovered s.id with
  | some contents => s.replace contents
  | none => s

/- The ids of the recovered sections. -/
def ids (recovered : List Section) : List SectionId :=
  recovered.map (fun s => s.id)

/- The ids of a tree that were recovered, in tree order. -/
def appliedIds
    (recovered : List Section)
    (treeIds : List SectionId) : List SectionId :=
  treeIds.filter (fun id => id ∈ ids recovered)

/-
  The recovered ids that a tree does not have, each once, in
  the order of their first occurrence.
-/
def orphanedIds
    (recovered : List Section)
    (treeIds : List SectionId) : List SectionId :=
  (ids recovered).eraseDups.filter (fun id => id ∉ treeIds)

end Graft

------------------------------------------------------------
-- Lines Waiting For A Section
------------------------------------------------------------

namespace Graft

/-
  The recovered lines by id.  An id stands where it occurred
  first, with the lines of its last occurrence.
-/
def waiting
    (recovered : List Section) :
    Table SectionId (List String) :=
  Table.empty.insertAll
    (recovered.map (fun s => (s.id, s.contents)))

/-
  The lines that still wait for their section, and the ids of
  the sections that got theirs.
-/
structure Progress where
  waiting : Table SectionId (List String)
  applied : List SectionId

/- Give a section the lines that wait for it, if any do. -/
def claim
    (s : Section) : StateM Progress Section := fun p =>
  match p.waiting.find? s.id with
  | none => (s, p)
  | some contents =>
      (s.replace contents,
        { waiting := p.waiting.erase s.id
          applied := p.applied ++ [s.id] })

/- What became of the recovered sections. -/
structure Report where
  applied : List SectionId
  orphaned : List SectionId
deriving DecidableEq

end Graft

------------------------------------------------------------
-- Grafting
------------------------------------------------------------

/-
  Put recovered sections back into a tree: the tree that comes
  of it, and the report.  A tree in which an id is repeated is
  refused and stays as it is.
-/
def graftInPlace
    (tree : Fragment)
    (recovered : List Section) :
    Fragment × Except FragmentError Graft.Report :=
  match tree.ensureUniqueSections with
  | .error e => (tree, .error e)
  | .ok () =>
      let (grafted, p) :=
        tree.visitSections Graft.claim
          { waiting := Graft.waiting recovered
            applied := [] }
      (grafted, .ok {
        applied := p.applied
        orphaned := p.waiting.keys })

/- A grafted tree, and what became of the recovered sections. -/
structure Graft where
  tree : Fragment
  applied : List SectionId
  orphaned : List SectionId

/- A graft is complete when every recovered id was applied. -/
def Graft.IsComplete (g : Graft) : Prop :=
  g.orphaned = []

instance (g : Graft) : Decidable g.IsComplete := by
  unfold Graft.IsComplete
  infer_instance

/- The grafted tree, if the tree is not refused. -/
def graft
    (tree : Fragment)
    (recovered : List Section) :
    Except FragmentError Graft :=
  match graftInPlace tree recovered with
  | (_, .error e) => .error e
  | (grafted, .ok report) =>
      .ok {
        tree := grafted
        applied := report.applied
        orphaned := report.orphaned }

end Palimpsest
