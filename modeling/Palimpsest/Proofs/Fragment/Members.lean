import Palimpsest.Fragment.Edit
import Palimpsest.Proofs.Fragment.Rebuilt

/-
  The members of a classifier after any run of calls that add
  children or put them first.

  The members stand compartment by compartment.  A call puts
  its child at one end of the child's compartment and leaves
  the other compartments alone, or refuses the child.  So only
  the order of the calls for one compartment and one end
  counts, and calls for different compartments or different
  ends can be exchanged.

  Main declarations:
    * `Fragment.inOrder`
    * `Placing`
    * `Placing.attemptAll`
    * `Placing.arranged`
    * `Placing.attemptAll_inOrder`
    * `Placing.members_follow_compartments`
-/

namespace Palimpsest

------------------------------------------------------------
-- The Order Of The Compartments
------------------------------------------------------------

namespace Compartment

theorem mem_all (c : Compartment) : c ∈ all := by
  cases c <;> simp [all]

/- The compartments are listed by their places. -/
theorem ascending_all :
    all.Pairwise (fun b c => b.index < c.index) := by
  simp [all, index]

/- The compartments before one and those behind it. -/
theorem exists_sides (c : Compartment) :
    ∃ front back,
      all = front ++ c :: back ∧
        (∀ b ∈ front, b.index < c.index) ∧
          (∀ b ∈ back, c.index < b.index) := by
  rcases List.append_of_mem c.mem_all with
    ⟨front, back, hAll⟩
  have hAscending := ascending_all
  rw [hAll, List.pairwise_append,
    List.pairwise_cons] at hAscending
  rcases hAscending with ⟨_, ⟨hBack, _⟩, hFront⟩
  exact ⟨front, back, hAll,
    fun b hb => hFront b hb c List.mem_cons_self, hBack⟩

/- A role without a compartment. -/
theorem ofRole?_eq_none_iff (role : Role) :
    ofRole? role = none ↔
      role = .module ∨ role = .classifier ∨ role = .other := by
  cases role <;> simp [ofRole?]

end Compartment

------------------------------------------------------------
-- Members Compartment By Compartment
------------------------------------------------------------

namespace Fragment

/- The contents of all compartments, one after another. -/
def inOrder
    (content : Compartment → List Fragment) : List Fragment :=
  Compartment.all.flatMap content

/- Every compartment holds members that belong there. -/
def HoldsOwn
    (content : Compartment → List Fragment) : Prop :=
  ∀ c, ∀ m ∈ content c, m.compartment? = some c

variable {content : Compartment → List Fragment}
variable {c : Compartment} {child m : Fragment}

theorem rank_of_compartment
    (hMember : m.compartment? = some c) :
    m.rank = c.index := by
  simp [rank, hMember]

/- Each compartment can be read off the members. -/
theorem membersIn_inOrder
    (hContent : HoldsOwn content)
    (c : Compartment) :
    membersIn c (inOrder content) = content c := by
  have hOther (bs : List Compartment) (hBs : c ∉ bs) :
      (bs.flatMap content).filter
        (fun m => m.compartment? = some c) = [] := by
    simp only [List.filter_eq_nil_iff, List.mem_flatMap,
      decide_eq_true_eq]
    rintro m ⟨b, hb, hm⟩ hMember
    have hSame := (hContent b m hm).symm.trans hMember
    exact hBs (Option.some.inj hSame ▸ hb)
  have hOwn :
      (content c).filter
        (fun m => m.compartment? = some c) = content c := by
    simpa [List.filter_eq_self] using hContent c
  rcases c.exists_sides with ⟨front, back, hAll, hFront, hBack⟩
  have hNotFront : c ∉ front := fun hMem =>
    Nat.lt_irrefl _ (hFront c hMem)
  have hNotBack : c ∉ back := fun hMem =>
    Nat.lt_irrefl _ (hBack c hMem)
  simp [membersIn, inOrder, hAll, hOther front hNotFront,
    hOther back hNotBack, hOwn]

/- The end of a run of members that pass a test. -/
theorem cut_append
    {low high : List Fragment}
    {test : Fragment → Bool}
    (hLow : ∀ m ∈ low, test m = true)
    (hHigh : ∀ m ∈ high, test m = false) :
    (low ++ high).takeWhile test = low ∧
      (low ++ high).dropWhile test = high := by
  rw [List.takeWhile_append_of_pos hLow,
    List.dropWhile_append_of_pos hLow]
  cases high with
  | nil =>
      simp
  | cons m rest =>
      simp [hHigh m List.mem_cons_self]

/- The content with one list in front of `c` and one behind. -/
def around
    (content : Compartment → List Fragment)
    (c : Compartment)
    (first last : List Fragment) : Compartment → List Fragment :=
  fun b =>
    if c = b then first ++ content b ++ last else content b

/-
  Members cut at one compartment: those of lower rank, those
  in the compartment, and those of higher rank.  What is put
  around the compartment stands between the three.
-/
theorem exists_cut
    (hContent : HoldsOwn content)
    (c : Compartment) :
    ∃ low high,
      (∀ first last, inOrder (around content c first last) =
        low ++ (first ++ content c ++ last) ++ high) ∧
      inOrder content = low ++ content c ++ high ∧
      (∀ m ∈ low, m.rank < c.index) ∧
      (∀ m ∈ content c, m.rank = c.index) ∧
      (∀ m ∈ high, c.index < m.rank) := by
  rcases c.exists_sides with ⟨front, back, hAll, hFront, hBack⟩
  refine ⟨front.flatMap content, back.flatMap content,
    ?_, ?_, ?_, ?_, ?_⟩
  · intro first last
    have hLow :
        front.flatMap (around content c first last) =
          front.flatMap content := by
      refine List.flatMap_congr (fun b hb => if_neg ?_)
      rintro rfl
      exact Nat.lt_irrefl _ (hFront _ hb)
    have hHigh :
        back.flatMap (around content c first last) =
          back.flatMap content := by
      refine List.flatMap_congr (fun b hb => if_neg ?_)
      rintro rfl
      exact Nat.lt_irrefl _ (hBack _ hb)
    simp [inOrder, hAll, hLow, hHigh, around]
  · simp [inOrder, hAll]
  · intro m hm
    rcases List.mem_flatMap.mp hm with ⟨b, hb, hIn⟩
    rw [rank_of_compartment (hContent b m hIn)]
    exact hFront b hb
  · intro m hm
    exact rank_of_compartment (hContent c m hm)
  · intro m hm
    rcases List.mem_flatMap.mp hm with ⟨b, hb, hIn⟩
    rw [rank_of_compartment (hContent b m hIn)]
    exact hBack b hb

/- A member added last stands last in its compartment. -/
theorem insertLast_inOrder
    (hContent : HoldsOwn content)
    (hChild : child.compartment? = some c) :
    insertLast child (inOrder content) =
      inOrder (around content c [] [child]) := by
  have hRank := rank_of_compartment hChild
  rcases exists_cut hContent c with
    ⟨low, high, hAround, hMembers, hLow, hOwn, hHigh⟩
  have hBefore : ∀ m ∈ low ++ content c,
      decide (m.rank ≤ child.rank) = true := by
    intro m hm
    simp only [decide_eq_true_eq]
    rcases List.mem_append.mp hm with hm | hm
    · have hLess := hLow m hm
      omega
    · have hSame := hOwn m hm
      omega
  have hBehind : ∀ m ∈ high,
      decide (m.rank ≤ child.rank) = false := by
    intro m hm
    have hMore := hHigh m hm
    simp only [decide_eq_false_iff_not]
    omega
  rcases cut_append hBefore hBehind with ⟨hTake, hDrop⟩
  unfold insertLast
  rw [hMembers, hTake, hDrop, hAround]
  simp

/- A member put first stands first in its compartment. -/
theorem insertFirst_inOrder
    (hContent : HoldsOwn content)
    (hChild : child.compartment? = some c) :
    insertFirst child (inOrder content) =
      inOrder (around content c [child] []) := by
  have hRank := rank_of_compartment hChild
  rcases exists_cut hContent c with
    ⟨low, high, hAround, hMembers, hLow, hOwn, hHigh⟩
  have hBefore : ∀ m ∈ low,
      decide (m.rank < child.rank) = true := by
    intro m hm
    have hLess := hLow m hm
    simp only [decide_eq_true_eq]
    omega
  have hBehind : ∀ m ∈ content c ++ high,
      decide (m.rank < child.rank) = false := by
    intro m hm
    simp only [decide_eq_false_iff_not]
    rcases List.mem_append.mp hm with hm | hm
    · have hSame := hOwn m hm
      omega
    · have hMore := hHigh m hm
      omega
  rcases cut_append hBefore hBehind with ⟨hTake, hDrop⟩
  -- The new member goes in front of its equals.
  unfold insertFirst
  rw [hMembers, List.append_assoc, hTake, hDrop, hAround]
  simp

/- The items of a classifier around those of its members. -/
def framed
    (i : Info)
    (header imports : Option Fragment)
    (declaration : String)
    (extras : Option Section)
    (body : List Item) : List Item :=
  itemsOption 0 header ++ itemsOption 0 imports ++
    i.prologueItems 0 ++
      [.line 0 (declaration ++ " \x7b")] ++
        i.afterItems 1 ++ body ++
          extras.toList.map (Item.region 0) ++
            [.line 0 "\x7d"]

/- Members in order are written compartment by compartment. -/
theorem items_inOrder
    (i : Info)
    (header imports : Option Fragment)
    (declaration : String)
    (extras : Option Section)
    (content : Compartment → List Fragment) :
    (Fragment.classifier i header imports declaration
        (inOrder content) extras).items 0 =
      framed i header imports declaration extras
        (Compartment.all.flatMap
          (fun c => (content c).flatMap (items 1))) := by
  simp only [items, framed, itemsList_eq_flatMap, inOrder,
    List.flatMap_assoc]

end Fragment

------------------------------------------------------------
-- Calls
------------------------------------------------------------

/- A call that adds a child last, or one that puts it first. -/
inductive Placing where
| last (child : Fragment)
| first (child : Fragment)

namespace Placing

/- The child of a call. -/
def child : Placing → Fragment
| .last m => m
| .first m => m

/- The container with the child, or the fault. -/
def place
    (p : Placing)
    (f : Fragment) : Except FragmentError Fragment :=
  match p with
  | .last m => f.add m
  | .first m => f.unshift m

/- Make a call.  A container that refuses the child stays. -/
def attempt
    (p : Placing)
    (f : Fragment) : Except FragmentError Unit × Fragment :=
  match p.place f with
  | .ok g => (.ok (), g)
  | .error fault => (.error fault, f)

/- Make calls one after another. -/
def attemptAll :
    List Placing → Fragment →
      List (Except FragmentError Unit) × Fragment
| [], f => ([], f)
| p :: calls, f =>
    match p.attempt f with
    | (answer, f) =>
        match attemptAll calls f with
        | (answers, f) => (answer :: answers, f)

/- What a classifier answers to a call. -/
def answer (p : Placing) : Except FragmentError Unit :=
  if p.child.role = .module ∨ p.child.role = .classifier ∨
      p.child.role = .other then
    .error (.unsupportedChild .classifier p.child.kind
      p.child.role)
  else
    .ok ()

/- The child that a call adds last in a compartment. -/
def addedTo? (c : Compartment) : Placing → Option Fragment
| .last m => if m.compartment? = some c then some m else none
| .first _ => none

/- The child that a call puts first in a compartment. -/
def shiftedTo? (c : Compartment) : Placing → Option Fragment
| .last _ => none
| .first m => if m.compartment? = some c then some m else none

/- The children added last in a compartment, first call first. -/
def addedTo
    (c : Compartment)
    (calls : List Placing) : List Fragment :=
  calls.filterMap (addedTo? c)

/- The children put first in a compartment, first call first. -/
def shiftedTo
    (c : Compartment)
    (calls : List Placing) : List Fragment :=
  calls.filterMap (shiftedTo? c)

/-
  What calls leave in a compartment: the children put first,
  last call first, and then those added last, first call
  first.
-/
def arranged
    (calls : List Placing)
    (c : Compartment) : List Fragment :=
  (shiftedTo c calls).reverse ++ addedTo c calls

------------------------------------------------------------
-- What A Call Does
------------------------------------------------------------

/- The contents of the compartments after a call. -/
def change
    (p : Placing)
    (content : Compartment → List Fragment)
    (c : Compartment) : List Fragment :=
  (p.shiftedTo? c).toList ++ content c ++ (p.addedTo? c).toList

variable {content : Compartment → List Fragment}

theorem compartment_of_addedTo?
    {p : Placing}
    {c : Compartment}
    {m : Fragment}
    (hLast : p.addedTo? c = some m) :
    m.compartment? = some c := by
  cases p with
  | last child =>
      simp only [addedTo?, Option.ite_none_right_eq_some,
        Option.some.injEq] at hLast
      exact hLast.2 ▸ hLast.1
  | first child =>
      simp [addedTo?] at hLast

theorem compartment_of_shiftedTo?
    {p : Placing}
    {c : Compartment}
    {m : Fragment}
    (hFirst : p.shiftedTo? c = some m) :
    m.compartment? = some c := by
  cases p with
  | last child =>
      simp [shiftedTo?] at hFirst
  | first child =>
      simp only [shiftedTo?, Option.ite_none_right_eq_some,
        Option.some.injEq] at hFirst
      exact hFirst.2 ▸ hFirst.1

/- A call leaves every member where it belongs. -/
theorem holdsOwn_change
    (hContent : Fragment.HoldsOwn content)
    (p : Placing) :
    Fragment.HoldsOwn (p.change content) := by
  intro c m hm
  simp only [change, List.mem_append,
    Option.mem_toList] at hm
  rcases hm with (hFirst | hPresent) | hLast
  · exact compartment_of_shiftedTo? hFirst
  · exact hContent c m hPresent
  · exact compartment_of_addedTo? hLast

/- The answer depends on the compartment of the child. -/
theorem answer_eq (p : Placing) :
    p.answer =
      match p.child.compartment? with
      | some _ => .ok ()
      | none =>
          .error (Fragment.refuse .classifier p.child) := by
  have hRole := Compartment.ofRole?_eq_none_iff p.child.role
  unfold answer Fragment.compartment? Fragment.refuse
  cases hCompartment : Compartment.ofRole? p.child.role with
  | none =>
      rw [if_pos (hRole.mp hCompartment)]
  | some c =>
      rw [if_neg (fun hRefused => by
        simp [hRole.mpr hRefused] at hCompartment)]

/- A refused child changes no compartment. -/
theorem change_of_refused
    {p : Placing}
    (hChild : p.child.compartment? = none) :
    p.change content = content := by
  funext c
  cases p <;>
    simp_all [change, addedTo?, shiftedTo?, child]

/- An accepted child changes its own compartment. -/
theorem change_of_accepted
    {p : Placing}
    {c : Compartment}
    (hChild : p.child.compartment? = some c) :
    p.change content =
      match p with
      | .last m => Fragment.around content c [] [m]
      | .first m => Fragment.around content c [m] [] := by
  funext b
  cases p with
  | last m =>
      have hMember : m.compartment? = some c := hChild
      by_cases hSame : c = b <;>
        simp [change, addedTo?, shiftedTo?, hMember, hSame,
          Fragment.around]
  | first m =>
      have hMember : m.compartment? = some c := hChild
      by_cases hSame : c = b <;>
        simp [change, addedTo?, shiftedTo?, hMember, hSame,
          Fragment.around]

variable {i : Info} {header imports : Option Fragment}
variable {declaration : String} {extras : Option Section}

/-
  A classifier whose members stand in order answers a call,
  and its members stand in order again.
-/
theorem attempt_inOrder
    (hContent : Fragment.HoldsOwn content)
    (p : Placing) :
    p.attempt
        (.classifier i header imports declaration
          (Fragment.inOrder content) extras) =
      (p.answer,
        .classifier i header imports declaration
          (Fragment.inOrder (p.change content)) extras) := by
  rw [answer_eq]
  cases hChild : p.child.compartment? with
  | none =>
      rw [change_of_refused hChild]
      cases p with
      | last m =>
          have hMember : m.compartment? = none := hChild
          simp [attempt, place, Fragment.add, hMember, child]
      | first m =>
          have hMember : m.compartment? = none := hChild
          simp [attempt, place, Fragment.unshift, hMember,
            child]
  | some c =>
      rw [change_of_accepted hChild]
      cases p with
      | last m =>
          have hMember : m.compartment? = some c := hChild
          simp [attempt, place, Fragment.add, hMember,
            Fragment.insertLast_inOrder hContent hMember]
      | first m =>
          have hMember : m.compartment? = some c := hChild
          simp [attempt, place, Fragment.unshift, hMember,
            Fragment.insertFirst_inOrder hContent hMember]

------------------------------------------------------------
-- What A Run Of Calls Does
------------------------------------------------------------

/-
  After a run of calls every compartment holds what was put
  first, what it held before, and what was added last.
-/
theorem attemptAll_inOrder
    (hContent : Fragment.HoldsOwn content)
    (calls : List Placing) :
    attemptAll calls
        (.classifier i header imports declaration
          (Fragment.inOrder content) extras) =
      (calls.map answer,
        .classifier i header imports declaration
          (Fragment.inOrder (fun c =>
            (shiftedTo c calls).reverse ++ content c ++
              addedTo c calls)) extras) := by
  -- The content is general, since the first call changes it.
  induction calls generalizing content with
  | nil =>
      simp [attemptAll, shiftedTo, addedTo]
  | cons p calls ih =>
      have hRest := ih (holdsOwn_change hContent p)
      have hShifted (c : Compartment) :
          (shiftedTo c (p :: calls)).reverse =
            (shiftedTo c calls).reverse ++
              (p.shiftedTo? c).toList := by
        unfold shiftedTo
        cases hFirst : p.shiftedTo? c <;>
          simp [hFirst]
      have hAdded (c : Compartment) :
          addedTo c (p :: calls) =
            (p.addedTo? c).toList ++ addedTo c calls := by
        unfold addedTo
        cases hLast : p.addedTo? c <;>
          simp [hLast]
      simp only [attemptAll, attempt_inOrder hContent p,
        hRest, List.map_cons, hShifted, hAdded, change,
        List.append_assoc]

/- A run of calls on a classifier without members. -/
theorem attemptAll_nil
    (i : Info)
    (header imports : Option Fragment)
    (declaration : String)
    (extras : Option Section)
    (calls : List Placing) :
    attemptAll calls
        (.classifier i header imports declaration []
          extras) =
      (calls.map answer,
        .classifier i header imports declaration
          (Fragment.inOrder (arranged calls)) extras) := by
  have hNone : Fragment.HoldsOwn (fun _ => []) := by
    simp [Fragment.HoldsOwn]
  have hEmpty : Fragment.inOrder (fun _ => []) = [] := by
    simp [Fragment.inOrder]
  calc
    attemptAll calls
        (.classifier i header imports declaration []
          extras) =
        attemptAll calls
          (.classifier i header imports declaration
            (Fragment.inOrder (fun _ => [])) extras) := by
      rw [hEmpty]
    _ = (calls.map answer,
          .classifier i header imports declaration
            (Fragment.inOrder (arranged calls)) extras) := by
      simp only [attemptAll_inOrder hNone, List.append_nil]
      rfl

/- What calls leave in a compartment belongs there. -/
theorem holdsOwn_arranged (calls : List Placing) :
    Fragment.HoldsOwn (arranged calls) := by
  intro c m hm
  simp only [arranged, shiftedTo, addedTo, List.mem_append,
    List.mem_reverse, List.mem_filterMap] at hm
  rcases hm with ⟨p, _, hFirst⟩ | ⟨p, _, hLast⟩
  · exact compartment_of_shiftedTo? hFirst
  · exact compartment_of_addedTo? hLast

------------------------------------------------------------
-- The Order Of The Calls
------------------------------------------------------------

/-
  Calls that bring the same children to the same end of every
  compartment in the same order.  The children may be built
  anew, so that only their ids differ.
-/
def Agree (calls others : List Placing) : Prop :=
  ∀ c,
    List.Forall₂ Fragment.Rebuilt
      (addedTo c calls) (addedTo c others) ∧
    List.Forall₂ Fragment.Rebuilt
      (shiftedTo c calls) (shiftedTo c others)

/- Calls that agree leave the same members. -/
theorem forall₂_inOrder_of_agree
    {calls others : List Placing}
    (hAgree : Agree calls others) :
    List.Forall₂ Fragment.Rebuilt
      (Fragment.inOrder (arranged calls))
      (Fragment.inOrder (arranged others)) := by
  have hContent (c : Compartment) :
      List.Forall₂ Fragment.Rebuilt
        (arranged calls c) (arranged others c) :=
    List.rel_append
      (List.forall₂_reverse_iff.mpr (hAgree c).2)
      (hAgree c).1
  refine List.rel_flatMap (R := Eq)
    (List.forall₂_same.mpr (fun c _ => rfl)) ?_
  rintro c _ rfl
  exact hContent c

/-
  Calls that agree leave the same classifier, when they are
  made on the same one without members.
-/
theorem rebuilt_of_agree
    {calls others : List Placing}
    {other : Fragment}
    (hBuilt :
      (Fragment.classifier i header imports declaration []
        extras).Rebuilt other)
    (hAgree : Agree calls others) :
    (attemptAll calls
        (.classifier i header imports declaration []
          extras)).2.Rebuilt
      (attemptAll others other).2 := by
  have hMembers := Fragment.renumberList_of_rebuilt
    (forall₂_inOrder_of_agree hAgree)
  cases other with
  | classifier j header' imports' declaration' ms extras' =>
      simp only [Fragment.Rebuilt, Fragment.renumber,
        Fragment.classifier.injEq,
        Fragment.renumberList_eq_map, List.map_nil,
        List.nil_eq, List.map_eq_nil_iff] at hBuilt
      rcases hBuilt with
        ⟨hInfo, hHeader, hImports, rfl, rfl, rfl⟩
      simp only [attemptAll_nil, Fragment.Rebuilt,
        Fragment.renumber, hInfo, hHeader, hImports, hMembers]
  | _ =>
      simp [Fragment.Rebuilt, Fragment.renumber] at hBuilt

/- A refused call leaves what was arranged. -/
theorem arranged_of_refused
    {calls : List Placing}
    {p : Placing}
    {fault : FragmentError}
    (hRefused : p.answer = .error fault) :
    arranged (calls ++ [p]) = arranged calls := by
  have hChild : p.child.compartment? = none := by
    rw [answer_eq] at hRefused
    cases hCompartment : p.child.compartment? with
    | none => rfl
    | some c => simp [hCompartment] at hRefused
  funext c
  cases p <;>
    simp_all [arranged, shiftedTo, addedTo, addedTo?,
      shiftedTo?, child]

/-
  Every run of calls on a classifier without members answers
  each call by the role of its child.  Each compartment then
  holds the children put first, last call first, and after
  them those added last, first call first; the compartments
  are written one after another, and a refused call leaves the
  classifier.  Runs that agree end by end and compartment by
  compartment have the same text in both styles.
-/
theorem members_follow_compartments
    {bare : Fragment}
    (hBare :
      bare =
        .classifier i header imports declaration [] extras)
    (calls : List Placing) :
    attemptAll calls bare =
        (calls.map answer,
          .classifier i header imports declaration
            (Fragment.inOrder (arranged calls)) extras) ∧
      (∀ c,
        Fragment.membersIn c
          (Fragment.inOrder (arranged calls)) =
            arranged calls c) ∧
      (∀ p fault, p.answer = .error fault →
        (attemptAll (calls ++ [p]) bare).2 =
          (attemptAll calls bare).2) ∧
      (∀ unit style,
        (attemptAll calls bare).2.render unit style =
          Text.unlines
            ((Fragment.framed i header imports declaration
              extras
              (Compartment.all.flatMap (fun c =>
                (arranged calls c).flatMap
                  (Fragment.items 1)))).flatMap
              (Item.entries style unit))) ∧
      ∀ others other,
        bare.Rebuilt other → Agree calls others →
          ∀ unit style,
            (attemptAll calls bare).2.render unit style =
              (attemptAll others other).2.render
                unit style := by
  subst hBare
  refine ⟨attemptAll_nil .., ?_, ?_, ?_, ?_⟩
  · exact Fragment.membersIn_inOrder
      (holdsOwn_arranged calls)
  · intro p fault hRefused
    simp only [attemptAll_nil, arranged_of_refused hRefused]
  · intro unit style
    simp only [attemptAll_nil, Fragment.render_eq_unlines,
      Fragment.items_inOrder]
  · intro others other hBuilt hAgree
    exact (rebuilt_of_agree hBuilt hAgree).render

/- A new class with a declaration. -/
def newClass (number : Nat) : Fragment :=
  .classifier (Info.new ⟨number⟩ "A" .classifier)
    none none "class A" [] none

/- A member that is one line. -/
def lineMember
    (number : Nat)
    (role : Role)
    (text : String) : Fragment :=
  .simple (Info.new ⟨number⟩ "" role) text

/- Fields come after the constructor, and a class too. -/
def constructorEarly : List Placing :=
  [.last (lineMember 1 .constructor "A() \x7b\x7d"),
    .first (lineMember 2 .field "int x;"),
    .last (newClass 3),
    .last (lineMember 4 .field "int y;"),
    .first (lineMember 5 .field "int w;")]

/- The fields of the class come first. -/
def constructorLate : List Placing :=
  [.last (lineMember 11 .field "int y;"),
    .first (lineMember 12 .field "int x;"),
    .first (lineMember 13 .field "int w;"),
    .last (lineMember 14 .constructor "A() \x7b\x7d")]

/- The two runs agree, and only the first is refused once. -/
theorem members_follow_compartments_sample :
    (newClass 0).Rebuilt (newClass 10) ∧
      Agree constructorEarly constructorLate ∧
      (attemptAll constructorEarly (newClass 0)).1 =
        [.ok (), .ok (),
          .error (.unsupportedChild .classifier .classifier
            .classifier),
          .ok (), .ok ()] ∧
      (attemptAll constructorEarly (newClass 0)).2.render
          "  " .inline =
        "class A \x7b\n  int w;\n  int x;\n  int y;\n" ++
          "  A() \x7b\x7d\n\x7d" ∧
      ∀ unit style,
        (attemptAll constructorEarly (newClass 0)).2.render
            unit style =
          (attemptAll constructorLate (newClass 10)).2.render
            unit style := by
  have hBuilt : (newClass 0).Rebuilt (newClass 10) := rfl
  have hAgree : Agree constructorEarly constructorLate := by
    intro c
    cases c <;>
      simp [addedTo, shiftedTo, addedTo?, shiftedTo?,
        constructorEarly, constructorLate, newClass,
        lineMember, Fragment.compartment?,
        Compartment.ofRole?, Fragment.role, Fragment.info,
        Info.new, Fragment.Rebuilt, Fragment.renumber,
        Info.renumber, List.filterMap_cons]
  rcases members_follow_compartments rfl constructorEarly
    with ⟨hRun, _, _, hText, hRender⟩
  refine ⟨hBuilt, hAgree, ?_, ?_,
    hRender _ _ hBuilt hAgree⟩
  · exact congrArg Prod.fst hRun
  · rw [newClass, hText]
    decide +kernel

end Placing

end Palimpsest
