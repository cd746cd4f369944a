import Palimpsest.Graft
import Palimpsest.Proofs.Fragment.Rendering
import Palimpsest.Proofs.Fragment.Visit
import Palimpsest.Proofs.Table

/-
  Sections written by hand survive a change of the model.

  A tree is grafted exactly when its ids are unique.  What an
  old text holds for a section reaches the section with the
  same id in the new tree, nothing else in the new tree is
  touched, and what finds no place there is reported.

  Main declarations:
    * `Fragment.ensureUniqueSections_eq_ok_iff`
    * `Fragment.ensureUniqueSections_eq_error_iff`
    * `Graft.lastContents?_eq_some_iff`
    * `Graft.exists_visits_claim`
    * `graftInPlace_of_nodup`
    * `graft_eq_ok_iff`
    * `Graft.Carried`
    * `graft_scan_render`
-/

namespace Palimpsest

------------------------------------------------------------
-- Unique Ids
------------------------------------------------------------

namespace Fragment

/- No id is repeated, neither in a list nor from before it. -/
theorem firstRepeatedAfter?_eq_none_iff
    {seen ids : List SectionId} :
    firstRepeatedAfter? seen ids = none ↔
      ids.Nodup ∧ ∀ id ∈ ids, id ∉ seen := by
  induction ids generalizing seen with
  | nil =>
      simp [firstRepeatedAfter?]
  | cons id rest ih =>
      unfold firstRepeatedAfter?
      by_cases hSeen : id ∈ seen
      · rw [if_pos hSeen]
        constructor
        · intro h
          cases h
        · intro h
          exact absurd hSeen (h.2 id List.mem_cons_self)
      · rw [if_neg hSeen, ih, List.nodup_cons,
          List.forall_mem_cons]
        constructor
        · intro h
          refine ⟨⟨?_, h.1⟩, hSeen, ?_⟩
          · intro hMem
            exact h.2 id hMem List.mem_cons_self
          · intro other hOther hIn
            exact h.2 other hOther
              (List.mem_cons_of_mem _ hIn)
        · intro h
          refine ⟨h.1.2, ?_⟩
          intro other hOther hIn
          rcases List.mem_cons.mp hIn with hEq | hOld
          · exact h.1.1 (hEq ▸ hOther)
          · exact h.2.2 other hOther hOld

/- A tree is accepted exactly when no id is repeated in it. -/
theorem ensureUniqueSections_eq_ok_iff {f : Fragment} :
    f.ensureUniqueSections = .ok () ↔ f.sectionIds.Nodup := by
  have hNone :
      firstRepeated? f.sectionIds = none ↔
        f.sectionIds.Nodup := by
    unfold firstRepeated?
    rw [firstRepeatedAfter?_eq_none_iff]
    simp
  rw [← hNone]
  unfold ensureUniqueSections
  cases firstRepeated? f.sectionIds <;> simp

/- A tree is refused for the id that is found repeated. -/
theorem ensureUniqueSections_eq_error_iff
    {f : Fragment}
    {cause : FragmentError} :
    f.ensureUniqueSections = .error cause ↔
      ∃ id,
        firstRepeated? f.sectionIds = some id ∧
          cause = .duplicateSectionId id := by
  unfold ensureUniqueSections
  cases firstRepeated? f.sectionIds <;> simp [eq_comm]

end Fragment

------------------------------------------------------------
-- Recovered Lines
------------------------------------------------------------

namespace Graft

variable {recovered : List Section} {id : SectionId}

/-
  The lines recovered for an id are those of the section with
  the id that no other one with the id follows.
-/
theorem lastContents?_eq_some_iff {contents : List String} :
    lastContents? recovered id = some contents ↔
      ∃ front s back,
        recovered = front ++ s :: back ∧ s.id = id ∧
          s.contents = contents ∧ id ∉ ids back := by
  unfold lastContents? ids
  rw [Option.map_eq_some_iff]
  constructor
  · rintro ⟨s, hFind, hContents⟩
    rw [List.find?_eq_some_iff_append] at hFind
    rcases hFind with ⟨hId, back, front, hSplit, hBack⟩
    refine ⟨front.reverse, s, back.reverse, ?_,
      by simpa using hId, hContents, ?_⟩
    · rw [← List.reverse_reverse recovered, hSplit]
      simp
    · intro hMem
      rcases List.mem_map.mp hMem with ⟨o, hO, hOther⟩
      have hNot := hBack o (List.mem_reverse.mp hO)
      simp [hOther] at hNot
  · rintro ⟨front, s, back, rfl, hId, hContents, hBack⟩
    refine ⟨s, ?_, hContents⟩
    rw [List.find?_eq_some_iff_append]
    refine ⟨by simpa using hId, back.reverse, front.reverse,
      by simp, ?_⟩
    intro o hO
    have hNot : o.id ≠ id := by
      intro hEq
      exact hBack
        (List.mem_map.mpr ⟨o, List.mem_reverse.mp hO, hEq⟩)
    simpa using hNot

/- No lines are recovered for an id that does not occur. -/
theorem lastContents?_eq_none_iff :
    lastContents? recovered id = none ↔
      id ∉ ids recovered := by
  unfold lastContents? ids
  rw [Option.map_eq_none_iff, List.find?_eq_none]
  simp

/- If ids are unique, every section has the last word. -/
theorem lastContents?_of_nodup
    (hIds : (ids recovered).Nodup)
    {s : Section}
    (hs : s ∈ recovered) :
    lastContents? recovered s.id = some s.contents := by
  rw [lastContents?_eq_some_iff]
  rcases List.append_of_mem hs with ⟨front, back, hSplit⟩
  refine ⟨front, s, back, hSplit, rfl, rfl, ?_⟩
  unfold ids at hIds
  rw [hSplit, List.map_append, List.map_cons] at hIds
  have hTail := (List.nodup_append.mp hIds).2.1
  exact (List.nodup_cons.mp hTail).1

/- Restoring a section keeps its id. -/
theorem id_restore
    (recovered : List Section)
    (s : Section) :
    (restore recovered s).id = s.id := by
  unfold restore
  cases lastContents? recovered s.id <;> rfl

/- A section gets the lines that were recovered for it. -/
theorem contents_restore
    {s : Section}
    {contents : List String}
    (hLast :
      lastContents? recovered s.id = some contents) :
    (restore recovered s).contents = contents := by
  unfold restore
  rw [hLast]
  rfl

/- A section stays as it is if nothing was recovered for it. -/
theorem restore_of_not_mem
    {s : Section}
    (hId : s.id ∉ ids recovered) :
    restore recovered s = s := by
  unfold restore
  rw [lastContents?_eq_none_iff.mpr hId]

/- Restored lines can be read back again. -/
theorem isRecoverable_restore
    (hRecovered : ∀ o ∈ recovered, o.IsRecoverable)
    {s : Section}
    (hSection :
      s.id ∉ ids recovered → s.IsRecoverable) :
    (restore recovered s).IsRecoverable := by
  cases hLast : lastContents? recovered s.id with
  | none =>
      rw [lastContents?_eq_none_iff] at hLast
      rw [restore_of_not_mem hLast]
      exact hSection hLast
  | some contents =>
      unfold Section.IsRecoverable
      rw [contents_restore hLast]
      rcases lastContents?_eq_some_iff.mp hLast with
        ⟨front, o, back, hSplit, _, hContents, _⟩
      rw [← hContents]
      exact hRecovered o (by simp [hSplit])

/-
  Restoring from changed sections makes the same change, if
  ids are unique and the change keeps them.
-/
theorem restore_map_of_mem
    {sections : List Section}
    {change : Section → Section}
    (hId : ∀ s, (change s).id = s.id)
    (hIds : (ids sections).Nodup)
    {s : Section}
    (hs : s ∈ sections) :
    restore (sections.map change) s = change s := by
  have hMapped : (ids (sections.map change)).Nodup := by
    have hSame : ids (sections.map change) = ids sections := by
      unfold ids
      rw [List.map_map]
      exact List.map_congr_left (fun o _ => hId o)
    rw [hSame]
    exact hIds
  have hLast :=
    lastContents?_of_nodup hMapped
      (List.mem_map_of_mem hs)
  rw [hId] at hLast
  unfold restore
  rw [hLast]
  unfold Section.replace
  rw [← hId s]

/- A list without repetitions has no duplicates to erase. -/
theorem eraseDups_of_nodup
    {ids : List SectionId}
    (hIds : ids.Nodup) :
    ids.eraseDups = ids := by
  induction ids with
  | nil =>
      rfl
  | cons id rest ih =>
      rw [List.nodup_cons] at hIds
      have hFilter :
          rest.filter (fun other => !other == id) = rest := by
        rw [List.filter_eq_self]
        intro other hOther
        have hNe : other ≠ id := fun hEq =>
          hIds.1 (hEq ▸ hOther)
        simpa using hNe
      rw [List.eraseDups_cons, hFilter, ih hIds.2]

/- Every id in a list without repetitions is orphaned once. -/
theorem orphanedIds_of_nodup
    (hIds : (ids recovered).Nodup)
    (treeIds : List SectionId) :
    orphanedIds recovered treeIds =
      (ids recovered).filter (fun id => id ∉ treeIds) := by
  unfold orphanedIds
  rw [eraseDups_of_nodup hIds]

end Graft

------------------------------------------------------------
-- Claiming Lines
------------------------------------------------------------

namespace Graft

/- The last lines of each recovered id wait in the table. -/
theorem find?_waiting
    (recovered : List Section)
    (id : SectionId) :
    (waiting recovered).find? id =
      lastContents? recovered id := by
  unfold waiting lastContents?
  rw [Table.find?_insertAll, ← List.map_reverse,
    List.find?_map, Option.map_map]
  exact Option.or_none

/- Each recovered id waits once, where it occurred first. -/
theorem keys_waiting (recovered : List Section) :
    (waiting recovered).keys = (ids recovered).eraseDups := by
  unfold waiting ids
  rw [Table.keys_insertAll_empty, List.map_map]
  rfl

theorem ids_cons
    (s : Section)
    (rest : List Section) :
    ids (s :: rest) = s.id :: ids rest :=
  rfl

/-
  Sections with unique ids claim their lines one after another:
  each is restored, those with lines are noted in their order,
  and the lines of the others go on waiting.
-/
theorem exists_visits_claim
    {sections : List Section}
    {p : Progress}
    (hIds : (ids sections).Nodup)
    (hWaiting : ∀ s ∈ sections,
      p.waiting.find? s.id = lastContents? recovered s.id) :
    ∃ last : Progress,
      Section.Visits claim (restore recovered) sections p
          last ∧
        last.applied =
          p.applied ++ appliedIds recovered (ids sections) ∧
        last.waiting.keys =
          p.waiting.keys.filter
            (fun id => decide (id ∉ ids sections)) := by
  induction sections generalizing p with
  | nil =>
      refine ⟨p, .nil, ?_, ?_⟩
      · simp [appliedIds, ids]
      · simp [ids]
  | cons s rest ih =>
      rw [ids_cons, List.nodup_cons] at hIds
      rw [List.forall_mem_cons] at hWaiting
      cases hLast : lastContents? recovered s.id with
      | none =>
          have hClaim : claim s p = (restore recovered s, p) := by
            simp only [claim, restore, hWaiting.1, hLast]
          have hNot : s.id ∉ p.waiting.keys :=
            Table.find?_eq_none_iff.mp (hWaiting.1.trans hLast)
          rw [lastContents?_eq_none_iff] at hLast
          rcases ih hIds.2 hWaiting.2 with
            ⟨last, hRest, hApplied, hKeys⟩
          refine ⟨last, .cons hClaim hRest, ?_, ?_⟩
          · rw [hApplied, ids_cons]
            unfold appliedIds
            rw [List.filter_cons_of_neg (by simpa using hLast)]
          · rw [hKeys]
            apply List.filter_congr
            intro id hId
            have hNe : id ≠ s.id := fun hSame =>
              hNot (hSame ▸ hId)
            simp [ids_cons, hNe]
      | some contents =>
          have hClaim :
              claim s p =
                (restore recovered s,
                  { waiting := p.waiting.erase s.id
                    applied := p.applied ++ [s.id] }) := by
            simp only [claim, restore, hWaiting.1, hLast]
          have hMem : s.id ∈ ids recovered := by
            by_contra hNot
            rw [lastContents?_eq_none_iff.mpr hNot] at hLast
            cases hLast
          have hRestWaiting : ∀ t ∈ rest,
              (p.waiting.erase s.id).find? t.id =
                lastContents? recovered t.id := by
            intro t hT
            have hNe : t.id ≠ s.id := fun hSame =>
              hIds.1 (hSame ▸ List.mem_map_of_mem hT)
            rw [Table.find?_erase _ hNe]
            exact hWaiting.2 t hT
          rcases @ih
              { waiting := p.waiting.erase s.id
                applied := p.applied ++ [s.id] }
              hIds.2 hRestWaiting with
            ⟨last, hRest, hApplied, hKeys⟩
          refine ⟨last, .cons hClaim hRest, ?_, ?_⟩
          · rw [hApplied, ids_cons]
            unfold appliedIds
            rw [List.filter_cons_of_pos (by simpa using hMem),
              List.append_assoc, List.singleton_append]
          · rw [hKeys, Table.keys_erase, List.filter_filter]
            apply List.filter_congr
            intro id _
            simp [ids_cons, Bool.and_comm]

end Graft

------------------------------------------------------------
-- Grafting
------------------------------------------------------------

/-
  A tree with unique ids is restored, and the recovered ids
  are sorted into those of the tree and the others.
-/
theorem graftInPlace_of_nodup
    {tree : Fragment}
    (hIds : tree.sectionIds.Nodup)
    (recovered : List Section) :
    graftInPlace tree recovered =
      (tree.mapSections (Graft.restore recovered),
        .ok {
          applied :=
            Graft.appliedIds recovered tree.sectionIds
          orphaned :=
            Graft.orphanedIds recovered tree.sectionIds }) := by
  have hWaiting : ∀ s ∈ tree.sections,
      (Graft.waiting recovered).find? s.id =
        Graft.lastContents? recovered s.id :=
    fun s _ => Graft.find?_waiting recovered s.id
  rcases @Graft.exists_visits_claim recovered tree.sections
      ⟨Graft.waiting recovered, []⟩ hIds hWaiting with
    ⟨last, hVisits, hApplied, hKeys⟩
  have hTree := Fragment.visitSections_of_visits hVisits
  rw [List.nil_append] at hApplied
  rw [Graft.keys_waiting] at hKeys
  unfold graftInPlace
  rw [Fragment.ensureUniqueSections_eq_ok_iff.mpr hIds]
  dsimp only
  rw [hTree]
  dsimp only
  rw [hApplied, hKeys]
  rfl

/- A tree that is refused stays as it is. -/
theorem graftInPlace_of_error
    {tree : Fragment}
    {fault : FragmentError}
    (hTree : tree.ensureUniqueSections = .error fault)
    (recovered : List Section) :
    graftInPlace tree recovered = (tree, .error fault) := by
  unfold graftInPlace
  rw [hTree]

/-
  Grafting succeeds exactly on trees with unique ids, and then
  it restores every section.
-/
theorem graft_eq_ok_iff
    {tree : Fragment}
    {recovered : List Section}
    {g : Graft} :
    graft tree recovered = .ok g ↔
      tree.sectionIds.Nodup ∧
        g = {
          tree := tree.mapSections (Graft.restore recovered)
          applied :=
            Graft.appliedIds recovered tree.sectionIds
          orphaned :=
            Graft.orphanedIds recovered tree.sectionIds } := by
  unfold graft
  cases hTree : tree.ensureUniqueSections with
  | error fault =>
      have hIds : ¬ tree.sectionIds.Nodup := by
        intro hIds
        rw [Fragment.ensureUniqueSections_eq_ok_iff.mpr hIds]
          at hTree
        cases hTree
      rw [graftInPlace_of_error hTree]
      simp [hIds]
  | ok _ =>
      have hIds : tree.sectionIds.Nodup :=
        Fragment.ensureUniqueSections_eq_ok_iff.mp hTree
      rw [graftInPlace_of_nodup hIds]
      simp [hIds, eq_comm]

------------------------------------------------------------
-- Carrying Sections Over
------------------------------------------------------------

/-
  What a section becomes when the sections of an old text are
  carried over: it keeps its id, it holds exactly the lines of
  the old section with that id, and it stays as it is if there
  is no such section.
-/
structure Graft.Carried
    (old : List Section)
    (s t : Section) : Prop where
  id : t.id = s.id
  kept : ∀ o ∈ old, o.id = s.id → t.contents = o.contents
  unchanged : (∀ o ∈ old, o.id ≠ s.id) → t = s

/- Restoring carries sections with unique ids over. -/
theorem Graft.carried_restore
    {old : List Section}
    (hIds : (Graft.ids old).Nodup)
    (s : Section) :
    Graft.Carried old s (Graft.restore old s) where
  id := Graft.id_restore old s
  kept := by
    intro o hO hId
    apply Graft.contents_restore
    rw [← hId]
    exact Graft.lastContents?_of_nodup hIds hO
  unchanged := by
    intro hNone
    apply Graft.restore_of_not_mem
    intro hMem
    rcases List.mem_map.mp hMem with ⟨o, hO, hId⟩
    exact hNone o hO hId

/-
  A tree into which recoverable sections were put back can be
  read back from its text, if its other sections can.
-/
theorem Fragment.scan_render_restored
    {unit : String}
    {f : Fragment}
    {recovered : List Section}
    (hUnit : IsIndentation unit)
    (hText : f.HasPlainText)
    (hRecovered : ∀ s ∈ recovered, s.IsRecoverable)
    (hSections :
      ∀ s ∈ f.emitted,
        s.id ∉ Graft.ids recovered → s.IsRecoverable) :
    scan
        ((f.mapSections (Graft.restore recovered)).render
          unit .marked) =
      .ok (f.emitted.map (Graft.restore recovered)) := by
  rw [← emitted_mapSections, scan_eq_ok_iff]
  apply blocks_render hUnit (hText.mapSections _)
  intro t hT
  rw [emitted_mapSections] at hT
  rcases List.mem_map.mp hT with ⟨s, hs, rfl⟩
  exact Graft.isRecoverable_restore hRecovered
    (hSections s hs)

variable {oldUnit : String} {old new : Fragment}

/-
  What was written for an old tree is carried over to a new
  one: scanning the old text and grafting onto the new tree
  succeed, the new tree differs from the grafted one in the
  carried sections only, and the old ids without a place in
  the new tree are reported in the order of the old text.  The
  new text holds what was carried over, at any indentation.
-/
theorem graft_scan_render
    (hUnit : IsIndentation oldUnit)
    (hOldIds : old.sectionIds.Nodup)
    (hNewIds : new.sectionIds.Nodup)
    (hOldText : old.HasPlainText)
    (hOldSections : ∀ s ∈ old.emitted, s.IsRecoverable) :
    ∃ recovered g,
      scan (old.render oldUnit .marked) = .ok recovered ∧
        graft new recovered = .ok g ∧
        Fragment.Related (Graft.Carried old.emitted)
          new g.tree ∧
        g.orphaned =
          old.emittedIds.filter
            (fun id => id ∉ new.sectionIds) ∧
        ∀ newUnit,
          IsIndentation newUnit →
          new.HasPlainText →
          (∀ s ∈ new.emitted, s.IsRecoverable) →
            scan (g.tree.render newUnit .marked) =
              .ok g.tree.emitted := by
  have hEmitted : (Graft.ids old.emitted).Nodup :=
    Fragment.nodup_emittedIds hOldIds
  refine ⟨old.emitted, _, ?_,
    graft_eq_ok_iff.mpr ⟨hNewIds, rfl⟩, ?_, ?_, ?_⟩
  · rw [scan_eq_ok_iff]
    exact Fragment.blocks_render hUnit hOldText hOldSections
  · apply Fragment.related_mapSections
    intro s _
    exact Graft.carried_restore hEmitted s
  · exact Graft.orphanedIds_of_nodup hEmitted _
  · intro newUnit hNewUnit hNewText hNewSections
    rw [Fragment.emitted_mapSections]
    exact Fragment.scan_render_restored hNewUnit hNewText
      hOldSections (fun s hs _ => hNewSections s hs)

/-
  The next version of the class: its method is gone, and its
  section for extras stands in a group.
-/
def Fragment.nextInvoice : Fragment :=
  .group (Info.new ⟨0⟩ "Invoice" .other)
    [.method (Info.new ⟨1⟩ "more" .method) "void more()" false
        (some (Section.empty extrasId)),
      .simple
        { Info.new ⟨2⟩ "end" .other with
          after := [Section.empty ⟨"end", by decide⟩] }
        "// end"]

/- The code of the method that is gone is reported. -/
theorem graft_scan_render_invoice :
    ∃ recovered g,
      scan
          ((Fragment.invoice [] ["  return 1;"] ["\x7d"]).render
            "\t" .marked) = .ok recovered ∧
        graft Fragment.nextInvoice recovered = .ok g ∧
        g.orphaned =
          [⟨"notes << // a", by decide⟩,
            ⟨"total.body", by decide⟩] ∧
        scan (g.tree.render "  " .marked) =
          .ok g.tree.emitted := by
  rcases @graft_scan_render "\t"
      (.invoice [] ["  return 1;"] ["\x7d"]) .nextInvoice
      (by decide +kernel) (by decide +kernel)
      (by decide +kernel) (by decide +kernel)
      (by decide +kernel) with
    ⟨recovered, g, hScan, hGraft, _, hOrphaned, hAgain⟩
  refine ⟨recovered, g, hScan, hGraft, ?_, ?_⟩
  · rw [hOrphaned]
    decide +kernel
  · exact hAgain "  " (by decide +kernel)
      (by decide +kernel) (by decide +kernel)

end Palimpsest
