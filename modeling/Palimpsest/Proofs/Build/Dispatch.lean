import Mathlib.Data.List.Perm.Basic
import Mathlib.Data.List.ProdSigma
import Palimpsest.Build.Visit

/-
  What builders are told about associations.

  An end that can be navigated to belongs to the classifier
  that the opposite end refers to.  When every association is
  visited from every classifier, each such end is handed to
  the builder once, during the visit from its classifier, and
  nothing else is.  No visit lacks a handler.

  Main declarations:
    * `Association.sides`
    * `Shape.seenFrom`
    * `Association.calls`
    * `Visit.callbacks_association`
    * `Visit.driveEach`
    * `Association.owners`
    * `Visit.ends_dispatched_once`
-/

namespace Palimpsest

------------------------------------------------------------
-- The Calls Of A Visit
------------------------------------------------------------

/- The shape of an association with a navigable end. -/
def Shape.seenFrom (mine other : AssociationEnd) : Shape where
  multiplicity :=
    if other.isSingle then
      if mine.isSingle then .oneToOne else .oneToMany
    else
      if mine.isSingle then .manyToOne else .manyToMany
  direction :=
    if other.isNavigable then .bidirectional else .directed

namespace Association

/- Both ends, each with the opposite one behind it. -/
def sides
    (a : Association) : List (AssociationEnd × AssociationEnd) :=
  [(a.second, a.first), (a.first, a.second)]

/- The call for an end of an association. -/
def call
    (a : Association)
    (side : AssociationEnd × AssociationEnd) : Callback :=
  .association (Shape.seenFrom side.1 side.2) a side.1 side.2

/- The end can be navigated to, from the classifier. -/
def IsOwned
    (classifier : Element)
    (side : AssociationEnd × AssociationEnd) : Prop :=
  side.2.reference = classifier.id ∧ side.1.isNavigable = true

instance
    (classifier : Element)
    (side : AssociationEnd × AssociationEnd) :
    Decidable (IsOwned classifier side) := by
  unfold IsOwned
  infer_instance

/- The calls for the ends that a classifier owns. -/
def calls
    (a : Association)
    (classifier : Element) : List Callback :=
  (a.sides.filter (fun side => IsOwned classifier side)).map
    a.call

/- The ends that a classifier owns, among both. -/
theorem owned_eq_filter
    (a : Association)
    (classifier : Element) :
    a.owned classifier.id =
      a.sides.filter (fun side => IsOwned classifier side) := by
  have hSides :
      a.owned classifier.id =
        (if IsOwned classifier (a.second, a.first) then
          [(a.second, a.first)]
        else
          []) ++
        (if IsOwned classifier (a.first, a.second) then
          [(a.first, a.second)]
        else
          []) :=
    rfl
  rw [hSides]
  by_cases hSecond : IsOwned classifier (a.second, a.first) <;>
    by_cases hFirst :
        IsOwned classifier (a.first, a.second) <;>
      simp [sides, hSecond, hFirst]

end Association

namespace Visit

/- A visit calls for the owned ends, and none is refused. -/
theorem callbacks_association
    (classifier : Element)
    (a : Association) :
    (Visit.association classifier a).callbacks =
      (a.calls classifier).map .ok := by
  simp only [callbacks, Association.owned_eq_filter,
    Association.calls, List.map_map]
  refine List.map_congr_left (fun side hSide => ?_)
  have hOwned : Association.IsOwned classifier side := by
    simpa using (List.mem_filter.mp hSide).2
  have hShape :
      Shape.classify side.1 side.2 =
        .ok (Shape.seenFrom side.1 side.2) := by
    unfold Shape.classify Shape.seenFrom Multiplicity.ofEnds
    rw [if_pos hOwned.2]
    cases side.2.isSingle <;> cases side.1.isSingle <;> rfl
  simp [associationCallback, hShape, Association.call]

end Visit

------------------------------------------------------------
-- Builders That Never Fail
------------------------------------------------------------

/- A builder that takes every callback. -/
def NeverFails (β : Type) [Builder β] : Prop :=
  ∀ (c : Callback) (b : β), (Builder.receive c b).1 = .ok ()

namespace Visit

variable {β : Type} [Builder β]

/- The state of a builder after callbacks. -/
def told
    (calls : List Callback)
    (b : β) : β :=
  calls.foldl (fun b c => (Builder.receive c b).2) b

/- Drive a builder through visits, whatever it answers. -/
def driveEach :
    List Visit → β → List (Except BuildError Unit) × β
| [], b => ([], b)
| v :: visits, b =>
    match v.drive b with
    | (answer, b) =>
        match driveEach visits b with
        | (answers, b) => (answer :: answers, b)

/- A builder that never fails takes all callbacks. -/
theorem driveAll_of_neverFails
    (hBuilder : NeverFails β)
    (calls : List Callback)
    (b : β) :
    driveAll (calls.map .ok) b = (.ok (), told calls b) := by
  induction calls generalizing b with
  | nil =>
      rfl
  | cons c calls ih =>
      have hAnswer := hBuilder c b
      simp only [List.map_cons, driveAll, told,
        List.foldl_cons]
      cases hReceive : Builder.receive c b with
      | mk answer after =>
          rw [hReceive] at hAnswer
          cases hAnswer
          exact ih after

/- Every visit to an association goes well, one by one. -/
theorem driveEach_of_neverFails
    (hBuilder : NeverFails β)
    (visits : List (Element × Association))
    (b : β) :
    driveEach (visits.map (fun v => .association v.1 v.2)) b =
      (visits.map (fun _ => .ok ()),
        told (visits.flatMap (fun v => v.2.calls v.1)) b) := by
  induction visits generalizing b with
  | nil =>
      rfl
  | cons v visits ih =>
      have hVisit :
          (Visit.association v.1 v.2).drive b =
            (.ok (), told (v.2.calls v.1) b) := by
        unfold drive
        rw [callbacks_association]
        exact driveAll_of_neverFails hBuilder _ b
      simp only [List.map_cons, driveEach, hVisit, ih,
        List.flatMap_cons]
      simp only [told, List.foldl_append]

end Visit

------------------------------------------------------------
-- Every Association From Every Classifier
------------------------------------------------------------

/- Two lists can be gone through in either order. -/
theorem perm_flatMap_swap
    {α β γ : Type}
    (xs : List α)
    (ys : List β)
    (f : α → β → List γ) :
    (xs.flatMap (fun x => ys.flatMap (f x))).Perm
      (ys.flatMap (fun y => xs.flatMap (fun x => f x y))) := by
  induction xs with
  | nil =>
      simp
  | cons x xs ih =>
      simp only [List.flatMap_cons]
      exact (ih.append_left _).trans
        (List.flatMap_append_perm ys _ _)

/- What is kept and changed, entry by entry. -/
theorem map_filter_eq_flatMap
    {α β : Type}
    (keep : α → Prop)
    [DecidablePred keep]
    (change : α → β)
    (xs : List α) :
    (xs.filter (fun x => keep x)).map change =
      xs.flatMap (fun x =>
        if keep x then [change x] else []) := by
  induction xs with
  | nil =>
      rfl
  | cons x xs ih =>
      by_cases hKeep : keep x <;>
        simp [hKeep, ih]

/- At most one classifier has an id. -/
theorem filter_eq_toList_find?
    {classifiers : List Element}
    (hIds : (classifiers.map Element.id).Nodup)
    (id : ElementId) :
    classifiers.filter (fun c => id = c.id) =
      (classifiers.find? (fun c => id = c.id)).toList := by
  induction classifiers with
  | nil =>
      rfl
  | cons c classifiers ih =>
      rw [List.map_cons, List.nodup_cons] at hIds
      by_cases hId : id = c.id
      · have hOthers : ∀ d ∈ classifiers, ¬ id = d.id := by
          intro d hd hSame
          exact hIds.1 (List.mem_map.mpr
            ⟨d, hd, hSame.symm.trans hId⟩)
        have hNone : classifiers.filter
            (fun d => id = d.id) = [] := by
          simpa [List.filter_eq_nil_iff] using hOthers
        rw [List.filter_cons_of_pos (by simpa using hId),
          List.find?_cons_of_pos (by simpa using hId), hNone]
        rfl
      · rw [List.filter_cons_of_neg (by simpa using hId),
          List.find?_cons_of_neg (by simpa using hId),
          ih hIds.2]

namespace Association

/-
  The calls for an association, each with its classifier: one
  for each navigable end whose opposite end refers to one of
  the classifiers.
-/
def owners
    (classifiers : List Element)
    (a : Association) : List (Element × Callback) :=
  a.sides.filterMap (fun side =>
    if side.1.isNavigable then
      (classifiers.find?
        (fun c => side.2.reference = c.id)).map
          (fun c => (c, a.call side))
    else
      none)

/- The calls from all classifiers are those of the owners. -/
theorem perm_owners
    {classifiers : List Element}
    (hIds : (classifiers.map Element.id).Nodup)
    (a : Association) :
    (classifiers.flatMap
        (fun c => (a.calls c).map (Prod.mk c))).Perm
      (a.owners classifiers) := by
  have hCalls (c : Element) :
      (a.calls c).map (Prod.mk c) =
        a.sides.flatMap (fun side =>
          if IsOwned c side then
            [(c, a.call side)]
          else
            []) := by
    rw [calls, List.map_map, map_filter_eq_flatMap]
    rfl
  have hOwners (side : AssociationEnd × AssociationEnd) :
      classifiers.flatMap (fun c =>
          if IsOwned c side then
            [(c, a.call side)]
          else
            []) =
        (if side.1.isNavigable then
          (classifiers.find?
            (fun c => side.2.reference = c.id)).map
              (fun c => (c, a.call side))
        else
          none).toList := by
    unfold IsOwned
    rw [← map_filter_eq_flatMap]
    by_cases hNavigable : side.1.isNavigable = true
    · have hFound := filter_eq_toList_find? hIds
        side.2.reference
      simp [hNavigable, hFound, Option.toList_map]
    · simp [hNavigable]
  -- The same calls, by classifiers or by ends.
  simp only [hCalls, owners, List.filterMap_eq_flatMap_toList,
    ← hOwners]
  exact perm_flatMap_swap _ _ _

end Association

namespace Visit

variable {β : Type} [Builder β]

/-
  Visit every association once from every classifier, in any
  order, with a builder that never fails.  Every visit goes
  well and hands the calls for its classifier to the builder.
  Over all visits, each navigable end of each association
  whose opposite end refers to one of the classifiers is
  handed over once, from this classifier, and nothing else is.
  With any builder, the calls of a visit are never refused for
  the lack of a handler.
-/
theorem ends_dispatched_once
    (hBuilder : NeverFails β)
    {classifiers : List Element}
    {associations : List Association}
    {visits : List (Element × Association)}
    (hIds : (classifiers.map Element.id).Nodup)
    (hVisits :
      visits.Perm (classifiers.product associations))
    (b : β) :
    driveEach (visits.map (fun v => .association v.1 v.2)) b =
        (visits.map (fun _ => .ok ()),
          told (visits.flatMap (fun v => v.2.calls v.1)) b) ∧
      (visits.flatMap (fun v =>
          (v.2.calls v.1).map (Prod.mk v.1))).Perm
        (associations.flatMap
          (Association.owners classifiers)) ∧
      ∀ classifier a,
        (Visit.association classifier a).callbacks =
          (a.calls classifier).map .ok := by
  refine ⟨driveEach_of_neverFails hBuilder visits b, ?_,
    callbacks_association⟩
  have hAll :
      (classifiers.product associations).flatMap (fun v =>
          (v.2.calls v.1).map (Prod.mk v.1)) =
        classifiers.flatMap (fun c =>
          associations.flatMap (fun a =>
            (a.calls c).map (Prod.mk c))) := by
    simp only [List.product, List.flatMap_assoc,
      List.flatMap_map]
  have hEach := List.Perm.flatMap_left associations
    (fun a _ => Association.perm_owners hIds a)
  have hVisited := hVisits.flatMap_right
    (fun v => (v.2.calls v.1).map (Prod.mk v.1))
  rw [hAll] at hVisited
  exact (hVisited.trans (perm_flatMap_swap _ _ _)).trans hEach

/- A builder that writes down the callbacks. -/
structure Journal where
  lines : List String
deriving DecidableEq

instance : Builder Journal :=
  ⟨fun c j => (.ok (), ⟨j.lines ++ [c.line]⟩)⟩

/- Two classifiers. -/
def order : Element :=
  ⟨⟨"order"⟩, "Order"⟩

def line : Element :=
  ⟨⟨"line"⟩, "Line"⟩

/- An order refers to another one, in both directions. -/
def follows : Association :=
  ⟨⟨⟨"follows"⟩, "follows"⟩,
    ⟨"previous", true, true, ⟨"order"⟩⟩,
    ⟨"next", true, false, ⟨"order"⟩⟩⟩

/- An order has lines, which cannot be navigated back. -/
def holds : Association :=
  ⟨⟨⟨"holds"⟩, "holds"⟩,
    ⟨"order", false, true, ⟨"order"⟩⟩,
    ⟨"lines", true, false, ⟨"line"⟩⟩⟩

/- A line has a product, which is no classifier here. -/
def sells : Association :=
  ⟨⟨⟨"sells"⟩, "sells"⟩,
    ⟨"line", true, false, ⟨"line"⟩⟩,
    ⟨"product", true, true, ⟨"product"⟩⟩⟩

/- Every association is visited from both, association-wise. -/
def orderVisits : List (Element × Association) :=
  [(order, follows), (line, follows), (order, holds),
    (line, holds), (line, sells), (order, sells)]

/-
  The order is told of itself twice and of its lines once, the
  line is told of its product, and nobody is told of the line
  as an end.
-/
theorem ends_dispatched_once_order :
    orderVisits.Perm
        ([order, line].product [follows, holds, sells]) ∧
      driveEach
          (orderVisits.map (fun v => .association v.1 v.2))
          (Journal.mk []) =
        (orderVisits.map (fun _ => .ok ()),
          ⟨["association follows my=next other=previous " ++
              "one-to-many",
            "association follows my=previous other=next " ++
              "many-to-one",
            "association holds my=lines other=order " ++
              "one-to-many (directed)",
            "association sells my=product other=line " ++
              "many-to-one"]⟩) ∧
      ([follows, holds, sells].flatMap
          (Association.owners [order, line])).length = 4 := by
  have hVisits : orderVisits.Perm
      ([order, line].product [follows, holds, sells]) := by
    decide
  have hBuilder : NeverFails Journal := fun _ _ => rfl
  rcases ends_dispatched_once hBuilder
      (show ([order, line].map Element.id).Nodup by decide)
      hVisits (Journal.mk []) with
    ⟨hRun, hCalls, _⟩
  refine ⟨hVisits, ?_, ?_⟩
  · rw [hRun]
    decide +kernel
  · rw [← hCalls.length_eq]
    decide +kernel

end Visit

end Palimpsest
