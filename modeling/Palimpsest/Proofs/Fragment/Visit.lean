import Palimpsest.Fragment.Visit
import Palimpsest.Proofs.Fragment.Change

/-
  What the walk that changes sections on its way does.

  The walk over a tree is the walk over the list of its
  sections: if that one makes the same change of each section
  whatever state it is in, so does the walk over the tree, it
  ends in the same state, and nothing else changes.  Whatever
  is done to a section, the walk meets the sections that the
  tree lists, in this order.

  Main declarations:
    * `Section.Visits`
    * `Section.visits_append_iff`
    * `Fragment.visitSections_of_visits`
    * `Fragment.sections_visitSections`
-/

namespace Palimpsest

variable {σ : Type}
variable {visit : Section → StateM σ Section}
variable {change : Section → Section}
variable {st last : σ}

------------------------------------------------------------
-- Visits Of Lists
------------------------------------------------------------

namespace Section

/-
  Visiting the sections one after another puts the changed
  ones in their places and ends in the last state.
-/
inductive Visits
    (visit : Section → StateM σ Section)
    (change : Section → Section) :
    List Section → σ → σ → Prop
| nil
    {st : σ} :
    Visits visit change [] st st
| cons
    {s : Section}
    {rest : List Section}
    {st next last : σ}
    (hFirst : visit s st = (change s, next))
    (hRest : Visits visit change rest next last) :
    Visits visit change (s :: rest) st last

/- Two lists are visited one after the other. -/
theorem visits_append_iff {xs ys : List Section} :
    Visits visit change (xs ++ ys) st last ↔
      ∃ next, Visits visit change xs st next ∧
        Visits visit change ys next last := by
  induction xs generalizing st with
  | nil =>
      constructor
      · intro hAll
        exact ⟨st, .nil, hAll⟩
      · rintro ⟨next, hNil, hRest⟩
        cases hNil
        exact hRest
  | cons x xs ih =>
      constructor
      · intro hAll
        cases hAll with
        | cons hFirst hRest =>
            rcases ih.mp hRest with ⟨next, hXs, hYs⟩
            exact ⟨next, .cons hFirst hXs, hYs⟩
      · rintro ⟨next, hXs, hYs⟩
        cases hXs with
        | cons hFirst hRest =>
            exact .cons hFirst (ih.mpr ⟨next, hRest, hYs⟩)

end Section

open Section (Visits visits_append_iff)

------------------------------------------------------------
-- Visits Of Trees
------------------------------------------------------------

/- A step of a walk whose outcome is known. -/
theorem bind_of_visit
    {α β : Type}
    {step : StateM σ α}
    {a : α}
    {next : σ}
    (hStep : step st = (a, next))
    (rest : α → StateM σ β) :
    (step >>= rest) st = rest a next := by
  change rest (step st).1 (step st).2 = rest a next
  rw [hStep]

/- A list of sections is visited section by section. -/
theorem mapM_of_visits
    {xs : List Section}
    (hVisits : Visits visit change xs st last) :
    xs.mapM visit st = (xs.map change, last) := by
  induction hVisits with
  | nil =>
      rfl
  | cons hFirst hRest ih =>
      rw [List.mapM_cons, bind_of_visit hFirst,
        bind_of_visit ih]
      rfl

/- An optional section is visited if it is there. -/
theorem optionMapM_of_visits
    {x : Option Section}
    (hVisits : Visits visit change x.toList st last) :
    x.mapM visit st = (x.map change, last) := by
  cases x with
  | none =>
      cases hVisits
      rfl
  | some s =>
      cases hVisits with
      | cons hFirst hRest =>
          cases hRest
          change (visit s >>= fun t => pure (some t)) st = _
          rw [bind_of_visit hFirst]
          rfl

/- The sections around a fragment are visited in order. -/
theorem Info.visitSections_of_visits
    {i : Info}
    (hVisits : Visits visit change i.sections st last) :
    i.visitSections visit st = (i.mapSections change, last) := by
  rcases visits_append_iff.mp hVisits with
    ⟨next, hBefore, hAfter⟩
  unfold visitSections
  rw [bind_of_visit (mapM_of_visits hBefore),
    bind_of_visit (mapM_of_visits hAfter)]
  rfl

namespace Fragment

/- A list of fragments is visited fragment by fragment. -/
theorem visitSectionsList_of_visits
    {fs : List Fragment}
    (hParts : ∀ f ∈ fs, ∀ st last,
      Visits visit change f.sections st last →
        f.visitSections visit st =
          (f.mapSections change, last))
    {st last : σ}
    (hVisits :
      Visits visit change (fs.flatMap sections) st last) :
    visitSectionsList visit fs st =
      (mapSectionsList change fs, last) := by
  induction fs generalizing st with
  | nil =>
      cases hVisits
      rfl
  | cons f fs ih =>
      rw [List.forall_mem_cons] at hParts
      rw [List.flatMap_cons, visits_append_iff] at hVisits
      rcases hVisits with ⟨next, hFirst, hRest⟩
      rw [visitSectionsList,
        bind_of_visit (hParts.1 _ _ hFirst),
        bind_of_visit (ih hParts.2 hRest)]
      rfl

/- An optional fragment is visited if it is there. -/
theorem visitSectionsOption_of_visits
    {f : Option Fragment}
    (hPart : ∀ g ∈ f.toList, ∀ st last,
      Visits visit change g.sections st last →
        g.visitSections visit st =
          (g.mapSections change, last))
    {st last : σ}
    (hVisits :
      Visits visit change (f.toList.flatMap sections)
        st last) :
    visitSectionsOption visit f st =
      (mapSectionsOption change f, last) := by
  cases f with
  | none =>
      cases hVisits
      rfl
  | some g =>
      have hOne :
          Visits visit change g.sections st last := by
        simpa using hVisits
      rw [visitSectionsOption,
        bind_of_visit (hPart g (by simp) _ _ hOne)]
      rfl

/-
  If visiting the sections of a tree one after another makes a
  change, the walk over the tree makes it and nothing else.
-/
theorem visitSections_of_visits
    {f : Fragment}
    (hVisits : Visits visit change f.sections st last) :
    f.visitSections visit st =
      (f.mapSections change, last) := by
  induction f using Fragment.induct generalizing st last with
  | module i p cs ihPackage ihChildren =>
      simp only [sections, sectionsOption_eq_flatMap,
        sectionsList_eq_flatMap, visits_append_iff] at hVisits
      rcases hVisits with
        ⟨_, ⟨_, hInfo, hPackage⟩, hChildren⟩
      rw [visitSections,
        bind_of_visit (Info.visitSections_of_visits hInfo),
        bind_of_visit (visitSectionsOption_of_visits
          (fun g hg _ _ => ihPackage g hg) hPackage),
        bind_of_visit (visitSectionsList_of_visits
          (fun g hg _ _ => ihChildren g hg) hChildren)]
      rfl
  | classifier i h m d ms x ihHeader ihImports ihMembers =>
      simp only [sections, sectionsOption_eq_flatMap,
        sectionsList_eq_flatMap, visits_append_iff] at hVisits
      rcases hVisits with
        ⟨_, ⟨_, ⟨_, ⟨_, hInfo, hHeader⟩, hImports⟩,
          hMembers⟩, hExtras⟩
      rw [visitSections,
        bind_of_visit (Info.visitSections_of_visits hInfo),
        bind_of_visit (visitSectionsOption_of_visits
          (fun g hg _ _ => ihHeader g hg) hHeader),
        bind_of_visit (visitSectionsOption_of_visits
          (fun g hg _ _ => ihImports g hg) hImports),
        bind_of_visit (visitSectionsList_of_visits
          (fun g hg _ _ => ihMembers g hg) hMembers),
        bind_of_visit (optionMapM_of_visits hExtras)]
      rfl
  | group i cs ihChildren =>
      simp only [sections, sectionsList_eq_flatMap,
        visits_append_iff] at hVisits
      rcases hVisits with ⟨_, hInfo, hChildren⟩
      rw [visitSections,
        bind_of_visit (Info.visitSections_of_visits hInfo),
        bind_of_visit (visitSectionsList_of_visits
          (fun g hg _ _ => ihChildren g hg) hChildren)]
      rfl
  | method i s a b =>
      simp only [sections, visits_append_iff] at hVisits
      rcases hVisits with ⟨_, hInfo, hBody⟩
      rw [visitSections,
        bind_of_visit (Info.visitSections_of_visits hInfo),
        bind_of_visit (optionMapM_of_visits hBody)]
      rfl
  | simple i t =>
      rw [visitSections,
        bind_of_visit (Info.visitSections_of_visits hVisits)]
      rfl
  | template i s =>
      rw [visitSections,
        bind_of_visit (Info.visitSections_of_visits hVisits)]
      rfl

end Fragment

------------------------------------------------------------
-- The Sections That Are Visited
------------------------------------------------------------

section Visited

variable (visit : Section → StateM σ Section)

/- An optional section is visited as a list of sections is. -/
theorem toList_optionMapM (x : Option Section) :
    Option.toList <$> x.mapM visit = x.toList.mapM visit := by
  cases x with
  | none =>
      rfl
  | some s =>
      have hOne : (some s).mapM visit = some <$> visit s :=
        rfl
      rw [hOne, Option.toList_some, List.mapM_cons,
        List.mapM_nil, Functor.map_map]
      simp only [map_pure, bind_pure_comp]
      rfl

/- The sections around a fragment are visited in order. -/
theorem Info.sections_visitSections (i : Info) :
    Info.sections <$> i.visitSections visit =
      i.sections.mapM visit := by
  simp only [visitSections, sections, List.mapM_append,
    map_bind, map_pure]

namespace Fragment

/- A list of fragments is visited fragment by fragment. -/
theorem sections_visitSectionsList
    {fs : List Fragment}
    (hParts : ∀ f ∈ fs,
      sections <$> f.visitSections visit =
        f.sections.mapM visit) :
    sectionsList <$> visitSectionsList visit fs =
      (sectionsList fs).mapM visit := by
  induction fs with
  | nil =>
      rfl
  | cons f fs ih =>
      rw [List.forall_mem_cons] at hParts
      simp only [visitSectionsList, sectionsList,
        List.mapM_append, ← hParts.1, ← ih hParts.2, map_bind,
        map_pure, bind_map_left]

/- An optional fragment is visited if it is there. -/
theorem sections_visitSectionsOption
    {f : Option Fragment}
    (hParts : ∀ g ∈ f.toList,
      sections <$> g.visitSections visit =
        g.sections.mapM visit) :
    sectionsOption <$> visitSectionsOption visit f =
      (sectionsOption f).mapM visit := by
  cases f with
  | none =>
      rfl
  | some g =>
      simp only [visitSectionsOption, sectionsOption,
        ← hParts g (by simp), bind_pure_comp,
        Functor.map_map]

/-
  The walk that changes sections visits the sections of the
  tree in the order in which they are listed, and puts what it
  makes of them in their places.
-/
theorem sections_visitSections (f : Fragment) :
    sections <$> f.visitSections visit =
      f.sections.mapM visit := by
  induction f using Fragment.induct with
  | module i p cs ihPackage ihChildren =>
      simp only [visitSections, sections, List.mapM_append,
        ← Info.sections_visitSections,
        ← sections_visitSectionsOption visit ihPackage,
        ← sections_visitSectionsList visit ihChildren,
        map_bind, map_pure, bind_map_left, bind_assoc,
        pure_bind]
  | classifier i h m d ms x ihHeader ihImports ihMembers =>
      simp only [visitSections, sections, List.mapM_append,
        ← Info.sections_visitSections,
        ← sections_visitSectionsOption visit ihHeader,
        ← sections_visitSectionsOption visit ihImports,
        ← sections_visitSectionsList visit ihMembers,
        ← toList_optionMapM, map_bind, map_pure,
        bind_map_left, bind_assoc, pure_bind]
  | group i cs ihChildren =>
      simp only [visitSections, sections, List.mapM_append,
        ← Info.sections_visitSections,
        ← sections_visitSectionsList visit ihChildren,
        map_bind, map_pure, bind_map_left]
  | method i s a b =>
      simp only [visitSections, sections, List.mapM_append,
        ← Info.sections_visitSections, ← toList_optionMapM,
        map_bind, map_pure, bind_map_left]
  | simple i t =>
      simp only [visitSections, sections,
        ← Info.sections_visitSections, bind_pure_comp,
        Functor.map_map]
  | template i s =>
      simp only [visitSections, sections,
        ← Info.sections_visitSections, bind_pure_comp,
        Functor.map_map]

end Fragment

end Visited

end Palimpsest
