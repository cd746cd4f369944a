import Palimpsest.Link
import Palimpsest.Proofs.Fragment.Carried

/-
  The links and the fragments after any run of calls that link
  fragments to elements.

  A fragment remembers the element of the last call for it,
  and the table gives an element the fragment of the last call
  for the element.  The two agree until the fragment is linked
  to another element: its entry in the table stays.

  Main declarations:
    * `LinkCall`
    * `LinkCall.make`
    * `Linking.run`
    * `LinkCall.lastFragment?`
    * `LinkCall.lastElement?`
    * `Linking.infos_run`
    * `Linking.fragmentOf?_run`
    * `Linking.IsFresh`
    * `Linking.entries_agree_unless_relinked`
-/

namespace Palimpsest

------------------------------------------------------------
-- Calls
------------------------------------------------------------

/- Fragments under construction, and the links. -/
structure Linking where
  forest : Forest
  links : LinkTable

/- A call that links a fragment to an element. -/
structure LinkCall where
  fragment : FragmentId
  element : ElementId

namespace LinkCall

/- Make a call: what it answers, and what it leaves. -/
def make
    (c : LinkCall)
    (s : Linking) : Option FragmentId × Linking :=
  match s.forest.find? c.fragment with
  | none => (none, s)
  | some f =>
      let linked := f.link c.element s.links
      (linked.previous,
        { forest :=
            s.forest.replace c.fragment linked.fragment
          links := linked.links })

/- What a call does to what a fragment carries. -/
def touch
    (c : LinkCall)
    (i : Info) : Info :=
  if i.id = c.fragment then i.represent c.element else i

/- The last call that passes a test. -/
def last?
    (test : LinkCall → Bool)
    (calls : List LinkCall) : Option LinkCall :=
  calls.reverse.find? test

/- The fragment of the last call for an element. -/
def lastFragment?
    (element : ElementId)
    (calls : List LinkCall) : Option FragmentId :=
  (last? (fun c => c.element = element) calls).map
    LinkCall.fragment

/- The element of the last call for a fragment. -/
def lastElement?
    (fragment : FragmentId)
    (calls : List LinkCall) : Option ElementId :=
  (last? (fun c => c.fragment = fragment) calls).map
    LinkCall.element

variable {c : LinkCall} {calls : List LinkCall}
variable {element : ElementId} {fragment : FragmentId}

/- Later calls come before earlier ones. -/
theorem last?_append
    (test : LinkCall → Bool)
    (calls more : List LinkCall) :
    last? test (calls ++ more) =
      (last? test more).or (last? test calls) := by
  simp only [last?, List.reverse_append, List.find?_append]

/- The first call counts when no later one passes. -/
theorem last?_cons
    (test : LinkCall → Bool)
    (c : LinkCall)
    (calls : List LinkCall) :
    last? test (c :: calls) =
      (last? test calls).or
        (if test c then some c else none) := by
  rw [← List.singleton_append, last?_append]
  cases hTest : test c <;> simp [last?, hTest]

theorem lastFragment?_cons :
    lastFragment? element (c :: calls) =
      (lastFragment? element calls).or
        (if c.element = element then
          some c.fragment
        else
          none) := by
  rw [lastFragment?, last?_cons, Option.map_or]
  by_cases hElement : c.element = element <;>
    simp [lastFragment?, hElement]

theorem lastElement?_cons :
    lastElement? fragment (c :: calls) =
      (lastElement? fragment calls).or
        (if c.fragment = fragment then
          some c.element
        else
          none) := by
  rw [lastElement?, last?_cons, Option.map_or]
  by_cases hFragment : c.fragment = fragment <;>
    simp [lastElement?, hFragment]

/- A last call for an element stands somewhere. -/
theorem exists_last_of_lastFragment?
    (hLast : lastFragment? element calls = some fragment) :
    ∃ before after,
      calls = before ++ ⟨fragment, element⟩ :: after ∧
        ∀ c ∈ after, c.element ≠ element := by
  rcases Option.map_eq_some_iff.mp hLast with
    ⟨last, hFound, hFragment⟩
  rcases List.find?_eq_some_iff_append.mp hFound with
    ⟨hElement, after, before, hCalls, hAfter⟩
  have hLastCall : last = ⟨fragment, element⟩ := by
    cases last
    simp_all
  refine ⟨before.reverse, after.reverse, ?_, ?_⟩
  · rw [← List.reverse_reverse calls, hCalls, hLastCall]
    simp
  · intro c hc
    simpa using hAfter c (List.mem_reverse.mp hc)

/-
  A fragment represents an element of one call exactly when no
  later call, all of them for other elements, is for it.
-/
theorem lastElement?_eq_some_iff
    {before after : List LinkCall}
    (hAfter : ∀ c ∈ after, c.element ≠ element) :
    lastElement? fragment
          (before ++ ⟨fragment, element⟩ :: after) =
        some element ↔
      ∀ c ∈ after, c.fragment ≠ fragment := by
  have hSplit :
      lastElement? fragment
          (before ++ ⟨fragment, element⟩ :: after) =
        (lastElement? fragment after).or (some element) := by
    rw [lastElement?, last?_append, Option.map_or]
    change (lastElement? fragment (_ :: after)).or _ = _
    rw [lastElement?_cons, if_pos rfl]
    cases lastElement? fragment after <;> rfl
  -- A later call for the fragment brings another element.
  rw [hSplit]
  cases hLater : lastElement? fragment after with
  | none =>
      simpa [lastElement?, last?] using hLater
  | some later =>
      rcases Option.map_eq_some_iff.mp hLater with
        ⟨c, hFound, rfl⟩
      have hMem : c ∈ after :=
        List.mem_reverse.mp (List.mem_of_find?_eq_some hFound)
      have hFragment : c.fragment = fragment := by
        simpa using List.find?_some hFound
      have hElement := hAfter c hMem
      constructor
      · intro hSame
        exact absurd (Option.some.inj hSame) hElement
      · intro hNone
        exact absurd hFragment (hNone c hMem)

------------------------------------------------------------
-- What A Call Does
------------------------------------------------------------

variable {s : Linking}

/- A call changes the element of its fragment only. -/
theorem infos_make
    (hIds : s.forest.ids.Nodup)
    (c : LinkCall) :
    (c.make s).2.forest.infos =
      s.forest.infos.map c.touch := by
  unfold make
  cases hFind : s.forest.find? c.fragment with
  | none =>
      have hOther := Forest.ne_of_find?_eq_none hFind
      have hSame : ∀ i ∈ s.forest.infos, c.touch i = i :=
        fun i hi => if_neg (hOther i hi)
      simp [List.map_congr_left hSame]
  | some f =>
      exact Forest.infos_replace hIds hFind
        (Info.represent c.element)

/- A call leaves the ids. -/
theorem ids_make
    (hIds : s.forest.ids.Nodup)
    (c : LinkCall) :
    (c.make s).2.forest.ids = s.forest.ids := by
  have hTouch (i : Info) : (c.touch i).id = i.id := by
    unfold touch
    split <;> rfl
  simp [Forest.ids, infos_make hIds, hTouch]

/- What a call for a fragment of the forest does to the links. -/
theorem make_links
    (hFragment : c.fragment ∈ s.forest.ids) :
    (c.make s).1 =
        (s.links.fragmentOf? c.element).filter
          (fun i => i ≠ c.fragment) ∧
      ∀ element,
        (c.make s).2.links.fragmentOf? element =
          if element = c.element then
            some c.fragment
          else
            s.links.fragmentOf? element := by
  unfold make
  cases hFind : s.forest.find? c.fragment with
  | none =>
      rcases List.mem_map.mp hFragment with ⟨i, hi, hSame⟩
      exact absurd hSame
        (Forest.ne_of_find?_eq_none hFind i hi)
  | some f =>
      have hId : f.id = c.fragment :=
        Forest.id_of_find? hFind
      simp [Fragment.link, hId, LinkTable.fragmentOf?,
        LinkTable.link, Table.find?_insert]

end LinkCall

------------------------------------------------------------
-- What A Run Of Calls Does
------------------------------------------------------------

namespace Linking

/- Make calls one after another. -/
def run
    (calls : List LinkCall)
    (s : Linking) : Linking :=
  calls.foldl (fun s c => (c.make s).2) s

variable {s : Linking}

/-
  After a run every fragment carries what it carried, with the
  element of the last call for it.
-/
theorem infos_run
    (hIds : s.forest.ids.Nodup)
    (calls : List LinkCall) :
    (s.run calls).forest.infos =
      s.forest.infos.map (fun i =>
        { i with
          element :=
            (LinkCall.lastElement? i.id calls).or
              i.element }) := by
  induction calls generalizing s with
  | nil =>
      simp [run, LinkCall.lastElement?, LinkCall.last?]
  | cons c calls ih =>
      have hNext : (c.make s).2.forest.ids.Nodup := by
        rwa [LinkCall.ids_make hIds]
      have hRest := ih hNext
      rw [LinkCall.infos_make hIds, List.map_map] at hRest
      refine hRest.trans (List.map_congr_left (fun i _ => ?_))
      rw [LinkCall.lastElement?_cons]
      by_cases hSame : i.id = c.fragment
      · simp [LinkCall.touch, hSame, Info.represent]
      · simp [LinkCall.touch, hSame, Ne.symm hSame]

/- After a run the ids are those before. -/
theorem ids_run
    (hIds : s.forest.ids.Nodup)
    (calls : List LinkCall) :
    (s.run calls).forest.ids = s.forest.ids := by
  simp [Forest.ids, infos_run hIds]

/-
  After a run the table gives an element the fragment of the
  last call for it.
-/
theorem fragmentOf?_run
    {calls : List LinkCall}
    (hIds : s.forest.ids.Nodup)
    (hCalls : ∀ c ∈ calls, c.fragment ∈ s.forest.ids)
    (element : ElementId) :
    (s.run calls).links.fragmentOf? element =
      (LinkCall.lastFragment? element calls).or
        (s.links.fragmentOf? element) := by
  induction calls generalizing s with
  | nil =>
      simp [run, LinkCall.lastFragment?, LinkCall.last?]
  | cons c calls ih =>
      rw [List.forall_mem_cons] at hCalls
      have hSame := LinkCall.ids_make hIds c
      have hRest := ih (hSame ▸ hIds)
        (by simpa [hSame] using hCalls.2)
      have hLinks := (LinkCall.make_links hCalls.1).2 element
      rw [LinkCall.lastFragment?_cons]
      refine hRest.trans ?_
      by_cases hElement : c.element = element
      · simp [hLinks, hElement]
      · simp [hLinks, hElement, Ne.symm hElement]

------------------------------------------------------------
-- Runs From No Links At All
------------------------------------------------------------

/- Distinct ids, no fragment with an element, and no links. -/
structure IsFresh (s : Linking) : Prop where
  distinct : s.forest.ids.Nodup
  unlinked : ∀ i ∈ s.forest.infos, i.element = none
  links : s.links = LinkTable.empty

variable {calls : List LinkCall}

/- Every fragment has the element of the last call for it. -/
theorem infos_run_of_fresh
    (hFresh : s.IsFresh)
    (calls : List LinkCall) :
    (s.run calls).forest.infos =
      s.forest.infos.map (fun i =>
        { i with
          element := LinkCall.lastElement? i.id calls }) := by
  rw [infos_run hFresh.distinct]
  refine List.map_congr_left (fun i hi => ?_)
  rw [hFresh.unlinked i hi, Option.or_none]

/- Every element has the fragment of the last call for it. -/
theorem fragmentOf?_run_of_fresh
    (hFresh : s.IsFresh)
    (hCalls : ∀ c ∈ calls, c.fragment ∈ s.forest.ids)
    (element : ElementId) :
    (s.run calls).links.fragmentOf? element =
      LinkCall.lastFragment? element calls := by
  rw [fragmentOf?_run hFresh.distinct hCalls, hFresh.links]
  exact Option.or_none

/- A call answers the other fragment that had its element. -/
theorem answer_of_fresh
    {before after : List LinkCall}
    {c : LinkCall}
    (hFresh : s.IsFresh)
    (hCalls : ∀ d ∈ before ++ c :: after,
      d.fragment ∈ s.forest.ids) :
    (c.make (s.run before)).1 =
      (LinkCall.lastFragment? c.element before).filter
        (fun i => i ≠ c.fragment) := by
  rw [List.forall_mem_append, List.forall_mem_cons] at hCalls
  have hFragment :
      c.fragment ∈ (s.run before).forest.ids := by
    rw [ids_run hFresh.distinct]
    exact hCalls.2.1
  rw [(LinkCall.make_links hFragment).1,
    fragmentOf?_run_of_fresh hFresh hCalls.1]

/-
  An entry of the table comes from the last call for its
  element, and its fragment has the element exactly when no
  later call is for the fragment.
-/
theorem exists_last_of_entry
    {i : Info}
    {element : ElementId}
    (hFresh : s.IsFresh)
    (hCalls : ∀ c ∈ calls, c.fragment ∈ s.forest.ids)
    (hInfo : i ∈ (s.run calls).forest.infos)
    (hEntry :
      (s.run calls).links.fragmentOf? element = some i.id) :
    ∃ before after,
      calls = before ++ ⟨i.id, element⟩ :: after ∧
        (∀ c ∈ after, c.element ≠ element) ∧
        (i.element = some element ↔
          ∀ c ∈ after, c.fragment ≠ i.id) := by
  rw [fragmentOf?_run_of_fresh hFresh hCalls] at hEntry
  rcases LinkCall.exists_last_of_lastFragment? hEntry with
    ⟨before, after, hSplit, hAfter⟩
  have hElement :
      i.element = LinkCall.lastElement? i.id calls := by
    rw [infos_run_of_fresh hFresh] at hInfo
    rcases List.mem_map.mp hInfo with ⟨_, _, rfl⟩
    rfl
  refine ⟨before, after, hSplit, hAfter, ?_⟩
  rw [hElement, hSplit]
  exact LinkCall.lastElement?_eq_some_iff hAfter

/-
  Make any calls for fragments of a forest with distinct ids,
  from no links at all.  A fragment carries what it carried
  and the element of the last call for it; the table gives an
  element the fragment of the last call for the element; and a
  call answers the other fragment that the table gave before.

  An entry of the table agrees with its fragment exactly when
  no call after the one that made the entry is for this
  fragment.  So all entries agree when no fragment is linked
  to two elements.
-/
theorem entries_agree_unless_relinked
    (calls : List LinkCall)
    (hFresh : s.IsFresh)
    (hCalls : ∀ c ∈ calls, c.fragment ∈ s.forest.ids) :
    (s.run calls).forest.infos =
        s.forest.infos.map (fun i =>
          { i with
            element := LinkCall.lastElement? i.id calls }) ∧
      (∀ element,
        (s.run calls).links.fragmentOf? element =
          LinkCall.lastFragment? element calls) ∧
      (∀ before c after, calls = before ++ c :: after →
        (c.make (s.run before)).1 =
          (LinkCall.lastFragment? c.element before).filter
            (fun i => i ≠ c.fragment)) ∧
      (∀ i ∈ (s.run calls).forest.infos, ∀ element,
        (s.run calls).links.fragmentOf? element = some i.id →
          ∃ before after,
            calls = before ++ ⟨i.id, element⟩ :: after ∧
              (∀ c ∈ after, c.element ≠ element) ∧
              (i.element = some element ↔
                ∀ c ∈ after, c.fragment ≠ i.id)) ∧
      ((∀ c ∈ calls, ∀ d ∈ calls,
          c.fragment = d.fragment → c.element = d.element) →
        ∀ i ∈ (s.run calls).forest.infos, ∀ element,
          (s.run calls).links.fragmentOf? element =
              some i.id →
            i.element = some element) := by
  refine ⟨infos_run_of_fresh hFresh calls,
    fragmentOf?_run_of_fresh hFresh hCalls, ?_,
    fun i hInfo element hEntry =>
      exists_last_of_entry hFresh hCalls hInfo hEntry, ?_⟩
  · intro before c after hSplit
    exact answer_of_fresh hFresh (hSplit ▸ hCalls)
  · intro hOnce i hInfo element hEntry
    rcases exists_last_of_entry hFresh hCalls hInfo hEntry with
      ⟨before, after, rfl, hAfter, hAgrees⟩
    refine hAgrees.mpr (fun c hc hSame => ?_)
    exact hAfter c hc
      (hOnce c (by simp [hc]) ⟨i.id, element⟩ (by simp) hSame)

/- A class with a field and a getter, not linked yet. -/
def unlinkedClass : Linking where
  forest :=
    ⟨[("A",
      .classifier (Info.new ⟨1⟩ "A" .classifier) none none
        "class A"
        [.simple (Info.new ⟨2⟩ "x" .field) "int x;",
          .method (Info.new ⟨3⟩ "getX" .getter) "int getX()"
            false none]
        none)]⟩
  links := LinkTable.empty

/- The field is linked twice, then the getter in its place. -/
def fieldTwice : List LinkCall :=
  [⟨⟨2⟩, ⟨"a"⟩⟩, ⟨⟨2⟩, ⟨"b"⟩⟩, ⟨⟨3⟩, ⟨"b"⟩⟩]

/- The first entry of the field outlives its second link. -/
theorem entries_agree_unless_relinked_field :
    unlinkedClass.IsFresh ∧
      (unlinkedClass.run fieldTwice).forest.infos.map
          (fun i => (i.id, i.element)) =
        [(⟨1⟩, none), (⟨2⟩, some ⟨"b"⟩),
          (⟨3⟩, some ⟨"b"⟩)] ∧
      (unlinkedClass.run fieldTwice).links.fragmentOf?
        ⟨"a"⟩ = some ⟨2⟩ ∧
      (unlinkedClass.run fieldTwice).links.fragmentOf?
        ⟨"b"⟩ = some ⟨3⟩ ∧
      (LinkCall.make ⟨⟨3⟩, ⟨"b"⟩⟩
        (unlinkedClass.run (fieldTwice.take 2))).1 =
          some ⟨2⟩ := by
  have hFresh : unlinkedClass.IsFresh :=
    ⟨by decide,
      by simp [unlinkedClass, Forest.infos, Fragment.infos,
        Fragment.infosList, Fragment.infosOption, Info.new],
      rfl⟩
  rcases entries_agree_unless_relinked fieldTwice hFresh
      (by decide) with
    ⟨hInfos, hTable, hAnswer, _, _⟩
  refine ⟨hFresh, ?_, ?_, ?_, ?_⟩
  · rw [hInfos]
    decide
  · rw [hTable]
    decide
  · rw [hTable]
    decide
  · rw [hAnswer (fieldTwice.take 2) ⟨⟨3⟩, ⟨"b"⟩⟩ [] rfl]
    decide

end Linking

end Palimpsest
