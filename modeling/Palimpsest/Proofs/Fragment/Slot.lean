import Palimpsest.Proofs.Fragment.Carried
import Palimpsest.Proofs.Fragment.Preorder
import Palimpsest.Proofs.Fragment.Visit

/-
  Where the search finds a fragment, and what an update of it
  leaves alone.

  A slot is a fragment without one of its parts: the package
  fragment of a module or one of its children, the header, the
  imports or a member of a classifier, a child of a group.
  The fragment that is found stands at the end of a way of
  slots, and an update fills the same slots with the changed
  fragment.

  Main declarations:
    * `Fragment.Slot`
    * `Fragment.Slot.fillAll`
    * `Fragment.IsFirst`
    * `Fragment.exists_isFirst`
    * `Fragment.IsFirst.update?_eq`
    * `Fragment.search_exact_and_local`
-/

namespace Palimpsest

namespace Fragment

------------------------------------------------------------
-- Slots
------------------------------------------------------------

/- A fragment without one of its parts. -/
inductive Slot where
| package
    (info : Info)
    (children : List Fragment)
| child
    (info : Info)
    (package : Option Fragment)
    (front back : List Fragment)
| header
    (info : Info)
    (imports : Option Fragment)
    (declaration : String)
    (members : List Fragment)
    (extras : Option Section)
| imports
    (info : Info)
    (header : Option Fragment)
    (declaration : String)
    (members : List Fragment)
    (extras : Option Section)
| member
    (info : Info)
    (header imports : Option Fragment)
    (declaration : String)
    (front back : List Fragment)
    (extras : Option Section)
| item
    (info : Info)
    (front back : List Fragment)

namespace Slot

/- Put a part into a slot. -/
def fill (part : Fragment) : Slot → Fragment
| .package i cs => .module i (some part) cs
| .child i p front back =>
    .module i p (front ++ part :: back)
| .header i m d ms x => .classifier i (some part) m d ms x
| .imports i h d ms x => .classifier i h (some part) d ms x
| .member i h m d front back x =>
    .classifier i h m d (front ++ part :: back) x
| .item i front back => .group i (front ++ part :: back)

/- What the fragment around a slot carries. -/
def info : Slot → Info
| .package i _ => i
| .child i _ _ _ => i
| .header i _ _ _ _ => i
| .imports i _ _ _ _ => i
| .member i _ _ _ _ _ _ => i
| .item i _ _ => i

/- The parts that are met before the one in the slot. -/
def earlier : Slot → List Fragment
| .package _ _ => []
| .child _ p front _ => p.toList ++ front
| .header _ _ _ _ _ => []
| .imports _ h _ _ _ => h.toList
| .member _ h m _ front _ _ => h.toList ++ m.toList ++ front
| .item _ front _ => front

/- The parts that are met after the one in the slot. -/
def later : Slot → List Fragment
| .package _ cs => cs
| .child _ _ _ back => back
| .header _ m _ ms _ => m.toList ++ ms
| .imports _ _ _ ms _ => ms
| .member _ _ _ _ _ back _ => back
| .item _ _ back => back

variable (slot : Slot) (part : Fragment)

/- The id of a filled slot does not depend on the part. -/
theorem id_fill : (slot.fill part).id = slot.info.id := by
  cases slot <;> rfl

/- The part in a slot stands between the other parts. -/
theorem parts_fill :
    (slot.fill part).parts =
      slot.earlier ++ part :: slot.later := by
  cases slot <;>
    simp [fill, parts, earlier, later]

end Slot

------------------------------------------------------------
-- Every Part Fills A Slot
------------------------------------------------------------

section Parts

variable {α : Type}
variable {xs ys front back : List α}
variable {a : α}

/- A value of two lists stands in the first or the second. -/
theorem append_eq_append_cons_cases
    (hAll : xs ++ ys = front ++ a :: back) :
    (∃ rest, xs = front ++ a :: rest ∧ back = rest ++ ys) ∨
      ∃ rest, front = xs ++ rest ∧ ys = rest ++ a :: back := by
  rcases List.append_eq_append_iff.mp hAll with
    ⟨rest, hFront, hYs⟩ | ⟨rest, hXs, hBack⟩
  · exact .inr ⟨rest, hFront, hYs⟩
  · cases rest with
    | nil =>
        exact .inr ⟨[], by simp [hXs], hBack.symm⟩
    | cons b rest =>
        cases hBack
        exact .inl ⟨rest, hXs, rfl⟩

/- The only value of an optional one. -/
theorem toList_eq_append_cons
    {x : Option α}
    (hOne : x.toList = front ++ a :: back) :
    x = some a ∧ front = [] ∧ back = [] := by
  cases x with
  | none =>
      simp at hOne
  | some b =>
      cases front with
      | nil =>
          cases hOne
          exact ⟨rfl, rfl, rfl⟩
      | cons c front =>
          simp at hOne

end Parts

variable {f g part : Fragment}
variable {front back : List Fragment}

/- A part of a fragment fills a slot between its other parts. -/
theorem exists_slot
    (hParts : f.parts = front ++ part :: back) :
    ∃ slot : Slot,
      slot.fill part = f ∧
        slot.earlier = front ∧ slot.later = back := by
  cases f with
  | module i p cs =>
      rcases append_eq_append_cons_cases hParts with
        ⟨rest, hPackage, rfl⟩ | ⟨rest, rfl, rfl⟩
      · rcases toList_eq_append_cons hPackage with
          ⟨rfl, rfl, rfl⟩
        exact ⟨.package i cs, rfl, rfl, rfl⟩
      · exact ⟨.child i p rest back, rfl, rfl, rfl⟩
  | classifier i h m d ms x =>
      rcases append_eq_append_cons_cases hParts with
        ⟨rest, hBoth, rfl⟩ | ⟨rest, rfl, rfl⟩
      · rcases append_eq_append_cons_cases hBoth with
          ⟨rest', hHeader, rfl⟩ | ⟨rest', rfl, hImports⟩
        · rcases toList_eq_append_cons hHeader with
            ⟨rfl, rfl, rfl⟩
          exact ⟨.header i m d ms x, rfl, rfl, rfl⟩
        · rcases toList_eq_append_cons hImports with
            ⟨rfl, rfl, rfl⟩
          exact ⟨.imports i h d ms x, rfl, by simp [Slot.earlier],
            rfl⟩
      · exact ⟨.member i h m d rest back x, rfl, rfl, rfl⟩
  | group i cs =>
      cases hParts
      exact ⟨.item i front back, rfl, rfl, rfl⟩
  | method i s a b =>
      simp [parts] at hParts
  | simple i t =>
      simp [parts] at hParts
  | template i s =>
      simp [parts] at hParts

------------------------------------------------------------
-- Ways Of Slots
------------------------------------------------------------

namespace Slot

/- Fill slots one in the other, the last one with a part. -/
def fillAll
    (slots : List Slot)
    (part : Fragment) : Fragment :=
  slots.foldr (fun slot f => slot.fill f) part

/- The ids that are met before the part in the last slot. -/
def idsBefore : List Slot → List FragmentId
| [] => []
| slot :: slots =>
    slot.info.id :: slot.earlier.flatMap ids ++
      idsBefore slots

/- The ids that are met after the part in the last slot. -/
def idsAfter : List Slot → List FragmentId
| [] => []
| slot :: slots => idsAfter slots ++ slot.later.flatMap ids

/- The ids of a fragment are its own and those of its parts. -/
theorem ids_eq_cons (f : Fragment) :
    f.ids = f.id :: f.parts.flatMap ids := by
  rw [ids, preorder_eq_cons, List.map_cons, List.map_flatMap]
  rfl

/- The ids of the part stand between those around it. -/
theorem ids_fillAll
    (slots : List Slot)
    (part : Fragment) :
    (fillAll slots part).ids =
      idsBefore slots ++ part.ids ++ idsAfter slots := by
  induction slots with
  | nil =>
      simp [fillAll, idsBefore, idsAfter]
  | cons slot slots ih =>
      have hFill : fillAll (slot :: slots) part =
          slot.fill (fillAll slots part) :=
        rfl
      rw [hFill, ids_eq_cons, id_fill, parts_fill,
        List.flatMap_append, List.flatMap_cons, ih, idsBefore,
        idsAfter]
      simp only [List.append_assoc, List.cons_append]

end Slot

open Slot (fillAll idsBefore idsAfter)

/-
  A fragment at the end of a way of slots through a tree that
  is the first one in pre-order with an id.
-/
structure IsFirst
    (target : FragmentId)
    (f : Fragment)
    (slots : List Slot)
    (g : Fragment) : Prop where
  filled : fillAll slots g = f
  id_eq : g.id = target
  before : target ∉ idsBefore slots

variable {target : FragmentId}
variable {change : Fragment → Fragment}
variable {slot : Slot}
variable {slots : List Slot}

/- A part that is first is first in the slot around it. -/
theorem IsFirst.fill
    (hPart : IsFirst target part slots g)
    (hOwner : slot.info.id ≠ target)
    (hEarlier : ∀ h ∈ slot.earlier, h.find? target = none) :
    IsFirst target (slot.fill part) (slot :: slots) g where
  filled := congrArg slot.fill hPart.filled
  id_eq := hPart.id_eq
  before := by
    rw [idsBefore, List.cons_append, List.mem_cons,
      List.mem_append, List.mem_flatMap]
    rintro (hId | ⟨h, hMem, hId⟩ | hId)
    · exact hOwner hId.symm
    · exact find?_eq_none_iff.mp (hEarlier h hMem) hId
    · exact hPart.before hId

/- The first fragment with the id stands at the end of a way. -/
theorem exists_isFirst
    (hFind : f.find? target = some g) :
    ∃ slots, IsFirst target f slots g := by
  induction f using induct_parts with
  | step f ih =>
      rw [find?_eq_ite] at hFind
      by_cases hId : f.id = target
      · rw [if_pos hId] at hFind
        cases hFind
        exact ⟨[], rfl, hId, List.not_mem_nil⟩
      · rw [if_neg hId] at hFind
        rcases List.findSome?_eq_some_iff.mp hFind with
          ⟨front, part, back, hParts, hPart, hFront⟩
        have hMem : part ∈ f.parts := by
          rw [hParts]
          exact List.mem_append_right _ List.mem_cons_self
        rcases ih part hMem hPart with ⟨slots, hFirst⟩
        rcases exists_slot hParts with
          ⟨slot, rfl, hEarlier, _⟩
        rw [Slot.id_fill] at hId
        rw [← hEarlier] at hFront
        exact ⟨slot :: slots, hFirst.fill hId hFront⟩

/- What is first at the end of a longer way. -/
theorem isFirst_cons_iff :
    IsFirst target f (slot :: slots) g ↔
      ∃ part,
        f = slot.fill part ∧ slot.info.id ≠ target ∧
          (∀ h ∈ slot.earlier, h.find? target = none) ∧
            IsFirst target part slots g := by
  constructor
  · rintro ⟨rfl, hId, hBefore⟩
    rw [idsBefore, List.cons_append, List.mem_cons,
      List.mem_append, List.mem_flatMap, not_or, not_or]
      at hBefore
    rcases hBefore with ⟨hOwner, hEarlier, hRest⟩
    exact ⟨fillAll slots g, rfl, Ne.symm hOwner,
      fun h hMem => find?_eq_none_iff.mpr
        (fun hTarget => hEarlier ⟨h, hMem, hTarget⟩),
      rfl, hId, hRest⟩
  · rintro ⟨part, rfl, hOwner, hEarlier, hFirst⟩
    exact hFirst.fill hOwner hEarlier

/- The search finds the first fragment with the id. -/
theorem IsFirst.find?_eq
    (hFirst : IsFirst target f slots g) :
    f.find? target = some g := by
  induction slots generalizing f with
  | nil =>
      have hSame : g = f := hFirst.filled
      rw [← hSame, find?_eq_ite, if_pos hFirst.id_eq]
  | cons slot slots ih =>
      rcases isFirst_cons_iff.mp hFirst with
        ⟨part, rfl, hOwner, hEarlier, hPart⟩
      rw [find?_eq_ite, Slot.id_fill, if_neg hOwner,
        Slot.parts_fill, List.findSome?_append,
        List.findSome?_eq_none_iff.mpr hEarlier,
        List.findSome?_cons, ih hPart]
      rfl

------------------------------------------------------------
-- Updates
------------------------------------------------------------

/- An update changes nothing exactly if nothing is found. -/
theorem update?_eq_none_iff :
    f.update? target change = none ↔ f.find? target = none := by
  have hExchanges := exchanges_update? target change f
  cases hFind : f.find? target with
  | none =>
      rw [hFind] at hExchanges
      simpa using hExchanges.1
  | some g =>
      rw [hFind] at hExchanges
      rcases hExchanges with ⟨_, front, back, _, hAfter⟩
      rcases Option.map_eq_some_iff.mp hAfter with
        ⟨updated, hUpdate, _⟩
      simp [hUpdate]

/- An optional fragment in which nothing is found is kept. -/
theorem updateOption?_eq_none
    {f : Option Fragment}
    (hNone : ∀ g ∈ f.toList, g.find? target = none) :
    updateOption? target change f = none := by
  cases f with
  | none =>
      rfl
  | some g =>
      exact update?_eq_none_iff.mpr (hNone g (by simp))

/- The first fragment of a list that can be changed is. -/
theorem updateList?_of_first
    {changed : Fragment}
    (hFront : ∀ f ∈ front, f.find? target = none)
    (hPart : part.update? target change = some changed) :
    updateList? target change (front ++ part :: back) =
      some (front ++ changed :: back) := by
  induction front with
  | nil =>
      rw [List.nil_append, updateList?, hPart]
      rfl
  | cons f front ih =>
      rw [List.forall_mem_cons] at hFront
      have hKept : f.update? target change = none :=
        update?_eq_none_iff.mpr hFront.1
      rw [List.cons_append, updateList?, hKept,
        ih hFront.2]
      rfl

/- An update reaches into the slot in which it finds the id. -/
theorem update?_fill
    {changed : Fragment}
    (hOwner : slot.info.id ≠ target)
    (hEarlier : ∀ h ∈ slot.earlier, h.find? target = none)
    (hPart : part.update? target change = some changed) :
    (slot.fill part).update? target change =
      some (slot.fill changed) := by
  cases slot with
  | package i cs =>
      rw [Slot.fill, update?]
      refine (if_neg hOwner).trans ?_
      simp only [updateOption?, hPart]
      rfl
  | child i p front back =>
      have hFront := List.forall_mem_append.mp hEarlier
      rw [Slot.fill, update?]
      refine (if_neg hOwner).trans ?_
      simp only [updateOption?_eq_none hFront.1,
        updateList?_of_first hFront.2 hPart]
      rfl
  | header i m d ms x =>
      rw [Slot.fill, update?]
      refine (if_neg hOwner).trans ?_
      simp only [updateOption?, hPart]
      rfl
  | imports i h d ms x =>
      rw [Slot.fill, update?]
      refine (if_neg hOwner).trans ?_
      simp only [updateOption?_eq_none hEarlier]
      simp only [updateOption?, hPart]
      rfl
  | member i h m d front back x =>
      have hFront := List.forall_mem_append.mp hEarlier
      have hBoth := List.forall_mem_append.mp hFront.1
      rw [Slot.fill, update?]
      refine (if_neg hOwner).trans ?_
      simp only [updateOption?_eq_none hBoth.1,
        updateOption?_eq_none hBoth.2,
        updateList?_of_first hFront.2 hPart]
      rfl
  | item i front back =>
      have hFront : ∀ h ∈ front, h.find? target = none :=
        hEarlier
      rw [Slot.fill, update?]
      refine (if_neg hOwner).trans ?_
      simp only [updateList?_of_first hFront hPart]
      rfl

/- An update fills the same slots with the changed fragment. -/
theorem IsFirst.update?_eq
    (hFirst : IsFirst target f slots g)
    (change : Fragment → Fragment) :
    f.update? target change =
      some (fillAll slots (change g)) := by
  induction slots generalizing f with
  | nil =>
      have hSame : g = f := hFirst.filled
      rw [← hSame]
      have hId := hFirst.id_eq
      cases g <;> rw [update?, if_pos hId] <;> rfl
  | cons slot slots ih =>
      rcases isFirst_cons_iff.mp hFirst with
        ⟨part, rfl, hOwner, hEarlier, hPart⟩
      exact update?_fill hOwner hEarlier (ih hPart)

/- An update fills the slots of what the search finds. -/
theorem update?_eq_some_iff
    {changed : Fragment} :
    f.update? target change = some changed ↔
      ∃ slots g,
        IsFirst target f slots g ∧
          changed = fillAll slots (change g) := by
  constructor
  · intro hUpdate
    cases hFind : f.find? target with
    | none =>
        rw [update?_eq_none_iff.mpr hFind] at hUpdate
        cases hUpdate
    | some g =>
        rcases exists_isFirst hFind with ⟨slots, hFirst⟩
        rw [hFirst.update?_eq change] at hUpdate
        exact ⟨slots, g, hFirst, (Option.some.inj hUpdate).symm⟩
  · rintro ⟨slots, g, hFirst, rfl⟩
    exact hFirst.update?_eq change

------------------------------------------------------------
-- The Search And The Walk Over Sections
------------------------------------------------------------

/-
  A fragment is found if one that the tree reaches has the id.
  It is the first one in pre-order: the way of slots to it
  passes no fragment with the id.  An update fills the slots
  of this way with the changed fragment, so everything outside
  the found fragment is as before.  The sections that the walk
  meets are those that the reached fragments own, and the walk
  that changes them meets them in the same order.
-/
theorem search_exact_and_local
    (f : Fragment)
    (target : FragmentId) :
    ((∃ g, f.find? target = some g) ↔
      ∃ g, f.Reaches g ∧ g.id = target) ∧
    f.find? target =
      f.preorder.find? (fun g => g.id = target) ∧
    (∀ g, f.find? target = some g ↔
      ∃ slots, IsFirst target f slots g) ∧
    (∀ change changed,
      f.update? target change = some changed ↔
        ∃ slots g,
          IsFirst target f slots g ∧
            changed = fillAll slots (change g) ∧
              changed.ids =
                idsBefore slots ++ (change g).ids ++
                  idsAfter slots) ∧
    (∀ g, g ∈ f.preorder ↔ f.Reaches g) ∧
    f.sections.Perm (f.preorder.flatMap owned) ∧
    ∀ (σ : Type) (visit : Section → StateM σ Section),
      sections <$> f.visitSections visit =
        f.sections.mapM visit := by
  refine ⟨exists_find?_iff, f.find?_eq_preorder_find?,
    fun g => ⟨exists_isFirst, ?_⟩, fun change changed => ?_,
    fun g => mem_preorder_iff, f.sections_perm_owned,
    fun σ visit => sections_visitSections visit f⟩
  · rintro ⟨slots, hFirst⟩
    exact hFirst.find?_eq
  · rw [update?_eq_some_iff]
    constructor
    · rintro ⟨slots, g, hFirst, rfl⟩
      exact ⟨slots, g, hFirst, rfl,
        Slot.ids_fillAll slots (change g)⟩
    · rintro ⟨slots, g, hFirst, hChanged, _⟩
      exact ⟨slots, g, hFirst, hChanged⟩

end Fragment

end Palimpsest
