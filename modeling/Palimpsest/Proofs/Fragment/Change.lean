import Mathlib.Data.List.Forall2
import Palimpsest.Fragment.Sections

/-
  What changing the sections of a fragment tree does to it.

  Two trees are related when they have the same shape and the
  same texts everywhere and the sections at the same places
  are related.  Changing every section gives a related tree,
  and the same one if every section is kept.

  Main declarations:
    * `Fragment.induct`
    * `Fragment.mapSections_eq_self`
    * `Fragment.Related`
    * `Fragment.related_mapSections`
-/

namespace Palimpsest

------------------------------------------------------------
-- Induction Over A Tree
------------------------------------------------------------

namespace Fragment

/-
  What holds of a fragment whenever it holds of all its parts
  holds of every fragment.
-/
@[elab_as_elim]
theorem induct
    {motive : Fragment → Prop}
    (module : ∀ i p cs,
      (∀ f ∈ p.toList, motive f) →
        (∀ f ∈ cs, motive f) → motive (.module i p cs))
    (classifier : ∀ i h m d ms x,
      (∀ f ∈ h.toList, motive f) →
        (∀ f ∈ m.toList, motive f) →
          (∀ f ∈ ms, motive f) →
            motive (.classifier i h m d ms x))
    (group : ∀ i cs,
      (∀ f ∈ cs, motive f) → motive (.group i cs))
    (method : ∀ i s a b, motive (.method i s a b))
    (simple : ∀ i t, motive (.simple i t))
    (template : ∀ i s, motive (.template i s))
    (f : Fragment) : motive f :=
  @Fragment.rec motive
    (fun p => ∀ f ∈ p.toList, motive f)
    (fun fs => ∀ f ∈ fs, motive f)
    module classifier group method simple template
    (by simp)
    (by simp)
    (by simp)
    (fun _ _ hFirst hRest =>
      List.forall_mem_cons.mpr ⟨hFirst, hRest⟩)
    f

end Fragment

------------------------------------------------------------
-- Changes That Change Nothing
------------------------------------------------------------

/- A list whose values are all kept is kept. -/
theorem map_eq_self
    {α : Type}
    {g : α → α}
    {xs : List α}
    (hAll : ∀ x ∈ xs, g x = x) :
    xs.map g = xs :=
  (List.map_congr_left hAll).trans (List.map_id xs)

/- An optional value that is kept. -/
theorem option_map_eq_self
    {α : Type}
    {g : α → α}
    {x : Option α}
    (hAll : ∀ a ∈ x.toList, g a = a) :
    x.map g = x := by
  cases x with
  | none =>
      rfl
  | some a =>
      rw [Option.map_some, hAll a (by simp)]

/- An info whose sections are all kept is kept. -/
theorem Info.mapSections_eq_self
    {change : Section → Section}
    {i : Info}
    (hAll : ∀ s ∈ i.sections, change s = s) :
    i.mapSections change = i := by
  unfold Info.sections at hAll
  rw [List.forall_mem_append] at hAll
  unfold Info.mapSections
  rw [map_eq_self hAll.1, map_eq_self hAll.2]

namespace Fragment

/- A tree whose sections are all kept is kept. -/
theorem mapSections_eq_self
    {change : Section → Section}
    {f : Fragment}
    (hAll : ∀ s ∈ f.sections, change s = s) :
    f.mapSections change = f := by
  induction f using Fragment.induct with
  | module i p cs ihPackage ihChildren =>
      simp only [sections, sectionsOption_eq_flatMap,
        sectionsList_eq_flatMap, List.forall_mem_append,
        List.forall_mem_flatMap] at hAll
      rcases hAll with ⟨⟨hInfo, hPackage⟩, hChildren⟩
      rw [mapSections, mapSectionsOption_eq_map,
        mapSectionsList_eq_map,
        Info.mapSections_eq_self hInfo,
        option_map_eq_self (fun g hg =>
          ihPackage g hg (hPackage g hg)),
        map_eq_self (fun g hg =>
          ihChildren g hg (hChildren g hg))]
  | classifier i h m d ms x ihHeader ihImports ihMembers =>
      simp only [sections, sectionsOption_eq_flatMap,
        sectionsList_eq_flatMap, List.forall_mem_append,
        List.forall_mem_flatMap] at hAll
      rcases hAll with
        ⟨⟨⟨⟨hInfo, hHeader⟩, hImports⟩, hMembers⟩, hExtras⟩
      rw [mapSections, mapSectionsOption_eq_map,
        mapSectionsOption_eq_map, mapSectionsList_eq_map,
        Info.mapSections_eq_self hInfo,
        option_map_eq_self (fun g hg =>
          ihHeader g hg (hHeader g hg)),
        option_map_eq_self (fun g hg =>
          ihImports g hg (hImports g hg)),
        map_eq_self (fun g hg =>
          ihMembers g hg (hMembers g hg)),
        option_map_eq_self hExtras]
  | group i cs ihChildren =>
      simp only [sections, sectionsList_eq_flatMap,
        List.forall_mem_append,
        List.forall_mem_flatMap] at hAll
      rw [mapSections, mapSectionsList_eq_map,
        Info.mapSections_eq_self hAll.1,
        map_eq_self (fun g hg =>
          ihChildren g hg (hAll.2 g hg))]
  | method i s a b =>
      simp only [sections, List.forall_mem_append] at hAll
      rw [mapSections, Info.mapSections_eq_self hAll.1,
        option_map_eq_self hAll.2]
  | simple i t =>
      rw [mapSections, Info.mapSections_eq_self hAll]
  | template i s =>
      rw [mapSections, Info.mapSections_eq_self hAll]

end Fragment

------------------------------------------------------------
-- Trees That Differ In Their Sections Only
------------------------------------------------------------

section Related

variable (R : Section → Section → Prop)

/- The same info, with related sections at the same places. -/
structure Info.Related (i j : Info) : Prop where
  frame :
    { j with before := i.before, after := i.after } = i
  before : List.Forall₂ R i.before j.before
  after : List.Forall₂ R i.after j.after

namespace Fragment

/-
  The same tree, with related sections at the same places:
  every text, every id and the shape of the tree agree.
-/
inductive Related : Fragment → Fragment → Prop
| module
    {i j : Info}
    {p q : Option Fragment}
    {cs ds : List Fragment}
    (hInfo : i.Related R j)
    (hPackage : p.Rel Related q)
    (hChildren : List.Forall₂ Related cs ds) :
    Related (.module i p cs) (.module j q ds)
| classifier
    {i j : Info}
    {h h' m m' : Option Fragment}
    {d : String}
    {ms ns : List Fragment}
    {x y : Option Section}
    (hInfo : i.Related R j)
    (hHeader : h.Rel Related h')
    (hImports : m.Rel Related m')
    (hMembers : List.Forall₂ Related ms ns)
    (hExtras : x.Rel R y) :
    Related (.classifier i h m d ms x)
      (.classifier j h' m' d ns y)
| group
    {i j : Info}
    {cs ds : List Fragment}
    (hInfo : i.Related R j)
    (hChildren : List.Forall₂ Related cs ds) :
    Related (.group i cs) (.group j ds)
| method
    {i j : Info}
    {s : String}
    {a : Bool}
    {b c : Option Section}
    (hInfo : i.Related R j)
    (hBody : b.Rel R c) :
    Related (.method i s a b) (.method j s a c)
| simple
    {i j : Info}
    {t : String}
    (hInfo : i.Related R j) :
    Related (.simple i t) (.simple j t)
| template
    {i j : Info}
    {s : String}
    (hInfo : i.Related R j) :
    Related (.template i s) (.template j s)

end Fragment

end Related

------------------------------------------------------------
-- Changed Trees Are Related
------------------------------------------------------------

section Changed

variable {R : Section → Section → Prop}
variable {change : Section → Section}

/- Each value of a list is related to the changed one. -/
theorem forall₂_map_right
    {α : Type}
    {S : α → α → Prop}
    {g : α → α}
    {xs : List α}
    (hAll : ∀ x ∈ xs, S x (g x)) :
    List.Forall₂ S xs (xs.map g) := by
  rw [List.forall₂_map_right_iff, List.forall₂_same]
  exact hAll

/- An optional value is related to the changed one. -/
theorem rel_map_right
    {α : Type}
    {S : α → α → Prop}
    {g : α → α}
    {x : Option α}
    (hAll : ∀ a ∈ x.toList, S a (g a)) :
    x.Rel S (x.map g) := by
  cases x with
  | none =>
      exact .none
  | some a =>
      exact .some (hAll a (by simp))

/- Changing the sections around a fragment keeps the rest. -/
theorem Info.related_mapSections
    {i : Info}
    (hAll : ∀ s ∈ i.sections, R s (change s)) :
    i.Related R (i.mapSections change) where
  frame := rfl
  before := forall₂_map_right (fun s hs =>
    hAll s (List.mem_append_left _ hs))
  after := forall₂_map_right (fun s hs =>
    hAll s (List.mem_append_right _ hs))

namespace Fragment

/- Changing the sections of a tree keeps all the rest. -/
theorem related_mapSections
    {f : Fragment}
    (hAll : ∀ s ∈ f.sections, R s (change s)) :
    Related R f (f.mapSections change) := by
  induction f using Fragment.induct with
  | module i p cs ihPackage ihChildren =>
      simp only [sections, sectionsOption_eq_flatMap,
        sectionsList_eq_flatMap, List.forall_mem_append,
        List.forall_mem_flatMap] at hAll
      rcases hAll with ⟨⟨hInfo, hPackage⟩, hChildren⟩
      rw [mapSections, mapSectionsOption_eq_map,
        mapSectionsList_eq_map]
      refine .module (Info.related_mapSections hInfo)
        (rel_map_right ?_) (forall₂_map_right ?_)
      · exact fun g hg => ihPackage g hg (hPackage g hg)
      · exact fun g hg => ihChildren g hg (hChildren g hg)
  | classifier i h m d ms x ihHeader ihImports ihMembers =>
      simp only [sections, sectionsOption_eq_flatMap,
        sectionsList_eq_flatMap, List.forall_mem_append,
        List.forall_mem_flatMap] at hAll
      rcases hAll with
        ⟨⟨⟨⟨hInfo, hHeader⟩, hImports⟩, hMembers⟩, hExtras⟩
      simp only [mapSections, mapSectionsOption_eq_map,
        mapSectionsList_eq_map]
      refine .classifier (Info.related_mapSections hInfo)
        (rel_map_right ?_) (rel_map_right ?_)
        (forall₂_map_right ?_) (rel_map_right hExtras)
      · exact fun g hg => ihHeader g hg (hHeader g hg)
      · exact fun g hg => ihImports g hg (hImports g hg)
      · exact fun g hg => ihMembers g hg (hMembers g hg)
  | group i cs ihChildren =>
      simp only [sections, sectionsList_eq_flatMap,
        List.forall_mem_append,
        List.forall_mem_flatMap] at hAll
      rw [mapSections, mapSectionsList_eq_map]
      exact .group (Info.related_mapSections hAll.1)
        (forall₂_map_right (fun g hg =>
          ihChildren g hg (hAll.2 g hg)))
  | method i s a b =>
      simp only [sections, List.forall_mem_append] at hAll
      exact .method (Info.related_mapSections hAll.1)
        (rel_map_right hAll.2)
  | simple i t =>
      exact .simple (Info.related_mapSections hAll)
  | template i s =>
      exact .template (Info.related_mapSections hAll)

end Fragment

end Changed

end Palimpsest
