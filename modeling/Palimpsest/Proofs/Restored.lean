import Palimpsest.Proofs.Graft

/-
  Putting recovered sections back loses and repeats nothing.

  A tree in which an id is repeated is refused for the first
  id that occurred before, and stays as it is.  In any other
  tree each section gets the lines of the last recovered
  section with its id, and all else stays.  Every recovered id
  is reported once: those of the tree in the order of the
  tree, the others in the order of their first occurrence.

  Main declarations:
    * `Fragment.IsFirstRepeated`
    * `Graft.Restored`
    * `Graft.pairwise_orphanedIds`
    * `graft_sorts_recovered_ids`
-/

namespace Palimpsest

------------------------------------------------------------
-- The First Repeated Id
------------------------------------------------------------

namespace Fragment

/- The id is the first in the list that occurred before it. -/
def IsFirstRepeated
    (id : SectionId)
    (ids : List SectionId) : Prop :=
  ∃ front back,
    ids = front ++ id :: back ∧ front.Nodup ∧ id ∈ front

/- The first id that occurred before it or had been seen. -/
theorem firstRepeatedAfter?_eq_some_iff
    {seen ids : List SectionId}
    {id : SectionId} :
    firstRepeatedAfter? seen ids = some id ↔
      ∃ front back,
        ids = front ++ id :: back ∧ front.Nodup ∧
          (∀ other ∈ front, other ∉ seen) ∧
            (id ∈ front ∨ id ∈ seen) := by
  induction ids generalizing seen with
  | nil =>
      constructor
      · intro h
        cases h
      · rintro ⟨front, back, hSplit, _⟩
        exact absurd hSplit (by simp)
  | cons first rest ih =>
      unfold firstRepeatedAfter?
      by_cases hSeen : first ∈ seen
      · rw [if_pos hSeen]
        constructor
        · intro hId
          cases hId
          exact ⟨[], rest, rfl, .nil, List.forall_mem_nil _,
            .inr hSeen⟩
        · rintro ⟨front, back, hSplit, _, hFront, _⟩
          cases front with
          | nil =>
              rw [List.nil_append, List.cons.injEq] at hSplit
              rw [hSplit.1]
          | cons other front =>
              rw [List.cons_append, List.cons.injEq] at hSplit
              rw [hSplit.1] at hSeen
              exact absurd hSeen
                (hFront other List.mem_cons_self)
      · rw [if_neg hSeen, ih]
        constructor
        · rintro ⟨front, back, rfl, hNodup, hFront, hId⟩
          refine ⟨first :: front, back, rfl, ?_, ?_, ?_⟩
          · rw [List.nodup_cons]
            exact ⟨fun hMem => hFront first hMem
              List.mem_cons_self, hNodup⟩
          · rw [List.forall_mem_cons]
            exact ⟨hSeen, fun other hOther hOld =>
              hFront other hOther (List.mem_cons_of_mem _ hOld)⟩
          · rcases hId with hFresh | hOld
            · exact .inl (List.mem_cons_of_mem _ hFresh)
            · rcases List.mem_cons.mp hOld with hEq | hOld
              · exact .inl (hEq ▸ List.mem_cons_self)
              · exact .inr hOld
        · rintro ⟨front, back, hSplit, hNodup, hFront, hId⟩
          cases front with
          | nil =>
              rw [List.nil_append, List.cons.injEq] at hSplit
              rw [← hSplit.1] at hId
              exact absurd (hId.resolve_left List.not_mem_nil) hSeen
          | cons other front =>
              rw [List.cons_append, List.cons.injEq] at hSplit
              rcases hSplit with ⟨rfl, hRest⟩
              rw [List.nodup_cons] at hNodup
              rw [List.forall_mem_cons] at hFront
              refine ⟨front, back, hRest, hNodup.2, ?_, ?_⟩
              · intro last hLast hOld
                rcases List.mem_cons.mp hOld with hEq | hOld
                · exact hNodup.1 (hEq ▸ hLast)
                · exact hFront.2 last hLast hOld
              · rcases hId with hMem | hOld
                · rcases List.mem_cons.mp hMem with hEq | hMem
                  · exact .inr (hEq ▸ List.mem_cons_self)
                  · exact .inl hMem
                · exact .inr (List.mem_cons_of_mem _ hOld)

theorem firstRepeated?_eq_some_iff
    {ids : List SectionId}
    {id : SectionId} :
    firstRepeated? ids = some id ↔ IsFirstRepeated id ids := by
  unfold firstRepeated? IsFirstRepeated
  rw [firstRepeatedAfter?_eq_some_iff]
  simp

end Fragment

------------------------------------------------------------
-- The Order Of First Occurrences
------------------------------------------------------------

namespace Graft

/- What is kept of a list stays in its order. -/
theorem idxOf_lt_of_filter
    {ids : List SectionId}
    {keep : SectionId → Bool}
    {a b : SectionId}
    (hA : keep a = true)
    (hB : keep b = true)
    (hLess :
      (ids.filter keep).idxOf a < (ids.filter keep).idxOf b) :
    ids.idxOf a < ids.idxOf b := by
  induction ids with
  | nil =>
      exact absurd hLess (Nat.lt_irrefl 0)
  | cons id rest ih =>
      by_cases hKeep : keep id = true
      · rw [List.filter_cons_of_pos hKeep] at hLess
        simp only [List.idxOf_cons] at hLess ⊢
        grind
      · rw [List.filter_cons_of_neg hKeep] at hLess
        have hNext := ih hLess
        simp only [List.idxOf_cons]
        grind

/- Ids without repetitions stand where they occurred first. -/
theorem pairwise_eraseDups (ids : List SectionId) :
    ids.eraseDups.Pairwise
      (fun a b => ids.idxOf a < ids.idxOf b) := by
  induction hLength : ids.length using Nat.strongRecOn
    generalizing ids with
  | ind n ih =>
      cases ids with
      | nil =>
          exact .nil
      | cons id rest =>
          let others := rest.filter (fun other => !other == id)
          have hShort : others.length < n := by
            have hFilter : others.length ≤ rest.length :=
              List.length_filter_le _ rest
            rw [← hLength, List.length_cons]
            omega
          have hNe : ∀ other ∈ others.eraseDups, other ≠ id := by
            intro other hOther
            rw [List.mem_eraseDups, List.mem_filter] at hOther
            simpa using hOther.2
          rw [List.eraseDups_cons, List.pairwise_cons]
          constructor
          · intro other hOther
            rw [List.idxOf_cons_self,
              List.idxOf_cons_ne _ (hNe other hOther).symm]
            omega
          · refine (ih _ hShort others rfl).imp_of_mem ?_
            intro a b hMemA hMemB hLess
            rw [List.idxOf_cons_ne _ (hNe a hMemA).symm,
              List.idxOf_cons_ne _ (hNe b hMemB).symm]
            have hRest := idxOf_lt_of_filter
              (by simpa using hNe a hMemA)
              (by simpa using hNe b hMemB) hLess
            omega

/- Orphaned ids stand in the order of first occurrences. -/
theorem pairwise_orphanedIds
    (recovered : List Section)
    (treeIds : List SectionId) :
    (orphanedIds recovered treeIds).Pairwise
      (fun a b =>
        (ids recovered).idxOf a < (ids recovered).idxOf b) :=
  (pairwise_eraseDups (ids recovered)).sublist
    List.filter_sublist

theorem mem_appliedIds_iff
    {recovered : List Section}
    {treeIds : List SectionId}
    {id : SectionId} :
    id ∈ appliedIds recovered treeIds ↔
      id ∈ treeIds ∧ id ∈ ids recovered := by
  unfold appliedIds
  rw [List.mem_filter, decide_eq_true_iff]

theorem mem_orphanedIds_iff
    {recovered : List Section}
    {treeIds : List SectionId}
    {id : SectionId} :
    id ∈ orphanedIds recovered treeIds ↔
      id ∈ ids recovered ∧ id ∉ treeIds := by
  unfold orphanedIds
  rw [List.mem_filter, List.mem_eraseDups, decide_eq_true_iff]

/- No id is reported twice. -/
theorem nodup_applied_orphaned
    {treeIds : List SectionId}
    (hIds : treeIds.Nodup)
    (recovered : List Section) :
    (appliedIds recovered treeIds ++
      orphanedIds recovered treeIds).Nodup := by
  rw [List.nodup_append]
  refine ⟨hIds.filter _, ?_, ?_⟩
  · refine (pairwise_orphanedIds recovered treeIds).imp ?_
    intro a b hLess hSame
    exact absurd hLess (hSame ▸ Nat.lt_irrefl _)
  · intro id hApplied other hOrphaned hSame
    rw [mem_appliedIds_iff] at hApplied
    rw [mem_orphanedIds_iff, ← hSame] at hOrphaned
    exact hOrphaned.2 hApplied.1

/- Every recovered id is reported, and no other. -/
theorem mem_applied_orphaned_iff
    {recovered : List Section}
    {treeIds : List SectionId}
    {id : SectionId} :
    id ∈ appliedIds recovered treeIds ++
        orphanedIds recovered treeIds ↔
      id ∈ ids recovered := by
  rw [List.mem_append, mem_appliedIds_iff, mem_orphanedIds_iff]
  by_cases hTree : id ∈ treeIds <;> simp [hTree]

------------------------------------------------------------
-- Restored Sections
------------------------------------------------------------

/-
  What a section becomes: it keeps its id, it holds the lines
  of the last recovered section with that id, and it stays as
  it is if there is none.
-/
structure Restored
    (recovered : List Section)
    (s t : Section) : Prop where
  id : t.id = s.id
  last : ∀ front o back,
    recovered = front ++ o :: back →
    o.id = s.id → s.id ∉ ids back → t.contents = o.contents
  unchanged : s.id ∉ ids recovered → t = s

theorem restored_restore
    (recovered : List Section)
    (s : Section) :
    Restored recovered s (restore recovered s) where
  id := id_restore recovered s
  last := by
    intro front o back hSplit hId hBack
    exact contents_restore
      (lastContents?_eq_some_iff.mpr
        ⟨front, o, back, hSplit, hId, rfl, hBack⟩)
  unchanged := restore_of_not_mem

end Graft

------------------------------------------------------------
-- Grafting As A Whole
------------------------------------------------------------

/-
  Grafting fails exactly when an id of the tree is repeated,
  for the first that is, and leaves the tree alone then.
  Otherwise every section is restored and nothing else in the
  tree changes, and the recovered ids are sorted, each once,
  into those of the tree and the others.
-/
theorem graft_sorts_recovered_ids
    (tree : Fragment)
    (recovered : List Section) :
    (∀ u fault,
      graftInPlace tree recovered = (u, .error fault) ↔
        u = tree ∧
          ∃ id,
            Fragment.IsFirstRepeated id tree.sectionIds ∧
              fault = .duplicateSectionId id) ∧
    ((∃ u fault,
      graftInPlace tree recovered = (u, .error fault)) ↔
        ¬ tree.sectionIds.Nodup) ∧
    (tree.sectionIds.Nodup →
      ∃ u report,
        graftInPlace tree recovered = (u, .ok report) ∧
        Fragment.Related (Graft.Restored recovered) tree u ∧
        report.applied =
          tree.sectionIds.filter
            (fun id => id ∈ Graft.ids recovered) ∧
        (∀ id, id ∈ report.orphaned ↔
          id ∈ Graft.ids recovered ∧
            id ∉ tree.sectionIds) ∧
        report.orphaned.Pairwise
          (fun a b =>
            (Graft.ids recovered).idxOf a <
              (Graft.ids recovered).idxOf b) ∧
        (report.applied ++ report.orphaned).Nodup ∧
        ∀ id, id ∈ report.applied ++ report.orphaned ↔
          id ∈ Graft.ids recovered) := by
  have hAccepted (hIds : tree.sectionIds.Nodup) :=
    graftInPlace_of_nodup hIds recovered
  refine ⟨?_, ?_, ?_⟩
  · intro u fault
    simp only [← Fragment.firstRepeated?_eq_some_iff]
    rw [← Fragment.ensureUniqueSections_eq_error_iff]
    constructor
    · intro hFault
      cases hTree : tree.ensureUniqueSections with
      | error other =>
          rw [graftInPlace_of_error hTree] at hFault
          cases hFault
          exact ⟨rfl, rfl⟩
      | ok _ =>
          rw [hAccepted
            (Fragment.ensureUniqueSections_eq_ok_iff.mp hTree)]
            at hFault
          cases hFault
    · rintro ⟨rfl, hTree⟩
      exact graftInPlace_of_error hTree recovered
  · constructor
    · rintro ⟨u, fault, hFault⟩ hIds
      rw [hAccepted hIds] at hFault
      cases hFault
    · intro hIds
      cases hTree : tree.ensureUniqueSections with
      | error fault =>
          exact ⟨_, _, graftInPlace_of_error hTree recovered⟩
      | ok _ =>
          exact absurd
            (Fragment.ensureUniqueSections_eq_ok_iff.mp hTree)
            hIds
  · intro hIds
    refine ⟨_, _, hAccepted hIds, ?_, rfl, ?_, ?_, ?_, ?_⟩
    · exact Fragment.related_mapSections
        (fun s _ => Graft.restored_restore recovered s)
    · exact fun id => Graft.mem_orphanedIds_iff
    · exact Graft.pairwise_orphanedIds recovered _
    · exact Graft.nodup_applied_orphaned hIds recovered
    · exact fun id => Graft.mem_applied_orphaned_iff

namespace Graft

/- An id that no tree here has. -/
def lostId : SectionId :=
  ⟨"lost", by decide⟩

/- Sections recovered from a file that repeats two ids. -/
def repeatedSections : List Section :=
  [⟨lostId, ["a"]⟩, ⟨Fragment.extrasId, ["old"]⟩,
    ⟨lostId, ["b"]⟩, ⟨Fragment.extrasId, ["new"]⟩]

end Graft

/- The next version of the class, twice in one group. -/
def Fragment.invoiceTwice : Fragment :=
  .group (Info.new ⟨3⟩ "twice" .other)
    [.nextInvoice, .nextInvoice]

/-
  The class gets the lines that came last, and the other id is
  reported once.  The class that is there twice is refused.
-/
theorem graft_sorts_recovered_ids_repeated :
    Fragment.nextInvoice.sectionIds.Nodup ∧
    (∃ u report,
      graftInPlace Fragment.nextInvoice
          Graft.repeatedSections = (u, .ok report) ∧
        Fragment.Related
          (Graft.Restored Graft.repeatedSections)
          Fragment.nextInvoice u ∧
        report.applied = [Fragment.extrasId] ∧
        Graft.lostId ∈ report.orphaned ∧
        (report.applied ++ report.orphaned).Nodup) ∧
    graftInPlace Fragment.invoiceTwice
        Graft.repeatedSections =
      (Fragment.invoiceTwice,
        .error
          (.duplicateSectionId Fragment.extrasId)) := by
  have hIds : Fragment.nextInvoice.sectionIds.Nodup := by
    decide +kernel
  refine ⟨hIds, ?_, ?_⟩
  · rcases (graft_sorts_recovered_ids .nextInvoice
        Graft.repeatedSections).2.2 hIds with
      ⟨u, report, hGraft, hTree, hApplied, hOrphaned, _,
        hOnce, _⟩
    refine ⟨u, report, hGraft, hTree, ?_, ?_, hOnce⟩
    · rw [hApplied]
      decide +kernel
    · rw [hOrphaned]
      decide +kernel
  · refine ((graft_sorts_recovered_ids .invoiceTwice
      Graft.repeatedSections).1 _ _).mpr ⟨rfl, _, ?_, rfl⟩
    -- The ids of the second class repeat those of the first.
    exact ⟨Fragment.nextInvoice.sectionIds,
      Fragment.nextInvoice.sectionIds.tail,
      by decide +kernel, hIds, by decide +kernel⟩

end Palimpsest
