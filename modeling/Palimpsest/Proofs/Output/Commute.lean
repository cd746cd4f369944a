import Palimpsest.Proofs.Files.Along
import Palimpsest.Proofs.Output.Action
import Palimpsest.Proofs.Output.RoundTrip

/-
  When the actions of different units do not interfere.

  An action puts nodes at some places, and its answer depends
  on the nodes at some places and on the files on the way of
  its path.  Two trees that agree there give the same answer
  and are changed alike.  So two actions commute when neither
  puts anything where the other looks.

  Main declarations:
    * `Action.Puts`
    * `Action.Alike`
    * `Action.perform_alike`
    * `Action.Apart`
    * `Action.perform_comm`
-/

namespace Palimpsest

------------------------------------------------------------
-- Files In Directories That Are There
------------------------------------------------------------

namespace FileTree

variable {t u v : FileTree} {path : FilePath}

/- A walk along all names but the last meets directories. -/
theorem walk_front_of_hasParent
    {front : List String}
    {last : String}
    (hForward : path.IsForward)
    (hNames : path.names = front ++ [last])
    (hHas : t.HasParent path) :
    t.walk (Location.start path) front =
        .ok (Location.start path ++ front) ∧
      t.at? (Location.start path ++ front) =
        some .directory := by
  rcases FilePath.exists_parent_of_names hNames with
    ⟨parent, hParent, hIs, hFront⟩
  by_cases hText : parent.text = ""
  · have hNil : front = [] := by
      by_contra hNot
      rw [← hFront] at hNot
      exact text_ne_of_names hNot hText
    rw [hNil, List.append_nil]
    exact ⟨rfl, t.at?_start path⟩
  · have hThere := walk_names_of_isDirectory
      (hIs.forward hForward) hIs.trimmed
      (hHas parent hParent hText)
    unfold FilePath.place at hThere
    rw [hIs.start, hFront] at hThere
    exact hThere

/- Where a file is found does not depend on the tree. -/
theorem exists_locateTrimmed_of_hasParent
    (hForward : path.IsForward)
    (hEnds : path.EndsInName) :
    (∀ t : FileTree, t.HasParent path →
        t.locateTrimmed path = .ok path.place) ∨
      ∃ fault, ∀ t : FileTree, t.HasParent path →
        t.locateTrimmed path = .error fault := by
  by_cases hLegal : IsLegal path
  · rcases hEnds.exists_names with ⟨front, last, hNames⟩
    have hLocate : ∀ t : FileTree, t.HasParent path →
        t.locateTrimmed path =
          if maxNameSize < last.utf8ByteSize then
            .error .nameTooLong
          else
            .ok path.place := by
      intro t hHas
      have hWalk :=
        walk_front_of_hasParent hForward hNames hHas
      rw [locateTrimmed_of_endsInName hEnds]
      exact locate_of_walk_front hForward hEnds hLegal hNames
        hWalk.1 hWalk.2
    by_cases hLong : maxNameSize < last.utf8ByteSize
    · right
      refine ⟨.nameTooLong, fun t hHas => ?_⟩
      rw [hLocate t hHas, if_pos hLong]
    · left
      intro t hHas
      rw [hLocate t hHas, if_neg hLong]
  · right
    rcases exists_fault_of_not_isLegal hLegal with
      ⟨fault, _, hFails⟩
    exact ⟨fault, fun t _ => hFails t _⟩

theorem KeepsDirectories.hasParent
    (hKeeps : t.KeepsDirectories u)
    (hHas : t.HasParent path) :
    u.HasParent path :=
  fun parent hParent hText =>
    hKeeps.isDirectory (hHas parent hParent hText)

/-
  Two trees are changed alike: at each place both are left
  alone, or the same node is put there.
-/
def ChangedAlike
    (puts : Location → Node → Prop)
    (t u : FileTree)
    (changed other : FileTree) : Prop :=
  ∀ place : Location,
    (changed.at? place = t.at? place ∧
        other.at? place = u.at? place) ∨
      ∃ n,
        puts place n ∧ changed.at? place = some n ∧
          other.at? place = some n

theorem changedAlike_self
    (puts : Location → Node → Prop)
    (t u : FileTree) :
    ChangedAlike puts t u t u :=
  fun _ => .inl ⟨rfl, rfl⟩

/- The same node is put at the same place. -/
theorem changedAlike_put
    {puts : Location → Node → Prop}
    {place : Location}
    {n : Node}
    (hPuts : puts place n)
    (hFirst : ¬ place.IsUpward) :
    ChangedAlike puts t u (t.put place n) (u.put place n) := by
  intro other
  rw [at?_put hFirst, at?_put hFirst]
  by_cases hOther : other = place
  · subst hOther
    exact .inr ⟨n, hPuts, if_pos rfl, if_pos rfl⟩
  · exact .inl ⟨if_neg hOther, if_neg hOther⟩

end FileTree

------------------------------------------------------------
-- What Actions Look At And Change
------------------------------------------------------------

namespace Action

variable {t u : FileTree} {a b : Action}

/- The nodes that an action may put, and where. -/
def Puts : Action → Location → Node → Prop
| .ensureDir path, place, n =>
    place <+: path.place ∧ n = .directory
| .read _, _, _ => False
| .write path text, place, n =>
    place = path.place ∧ n = Node.ofText text
| .create path text, place, n =>
    place = path.place ∧ n = Node.ofText text

/- The places at which an action looks at the node. -/
def Watches : Action → Location → Prop
| .ensureDir _, _ => False
| .read path, place => place = path.place
| .write path _, place => place = path.place
| .create path _, place => place = path.place

/- The places at which a file is in the way of an action. -/
def Passes : Action → Location → Prop
| .ensureDir path, place => place <+: path.place
| .read path, place =>
    place <+: path.place ∧ place ≠ path.place
| .write _ _, _ => False
| .create _ _, _ => False

/- The directory that the file is in is there. -/
def IsReady : Action → FileTree → Prop
| .ensureDir _, _ => True
| .read _, _ => True
| .write path _, t => t.HasParent path
| .create path _, t => t.HasParent path

/-
  The path never steps up and is written without idle pieces
  at its end, and what is read has names that are short enough
  for files to have them.
-/
def IsPlain : Action → Prop
| .ensureDir path => path.IsForward ∧ path.IsTrimmed
| .read path =>
    path.IsForward ∧ path.EndsInName ∧
      ∀ name ∈ path.names,
        name.utf8ByteSize ≤ FileTree.maxNameSize
| .write path _ => path.IsForward ∧ path.EndsInName
| .create path _ => path.IsForward ∧ path.EndsInName

/- Two trees agree wherever an action looks. -/
structure Alike
    (a : Action)
    (t u : FileTree) : Prop where
  watched : ∀ place,
    a.Watches place → t.at? place = u.at? place
  passed : ∀ place,
    a.Passes place → (t.HasFile place ↔ u.HasFile place)

theorem IsReady.of_keepsDirectories
    (hReady : a.IsReady t)
    (hKeeps : t.KeepsDirectories u) :
    a.IsReady u := by
  cases a with
  | ensureDir path =>
      trivial
  | read path =>
      trivial
  | write path text =>
      exact hKeeps.hasParent hReady
  | create path text =>
      exact hKeeps.hasParent hReady

/- No action takes a directory away. -/
theorem keepsDirectories_perform
    (a : Action)
    (t : FileTree) :
    t.KeepsDirectories (a.perform t).2 := by
  cases a with
  | ensureDir path =>
      exact (FileTree.addsDirectories_ensureDir path
        t).keepsDirectories
  | read path =>
      exact .refl t
  | write path text =>
      dsimp only [perform]
      cases hWrite : t.write path text with
      | mk answer u =>
          cases answer with
          | error fault =>
              rw [FileTree.eq_of_write_eq_error hWrite]
              exact .refl t
          | ok _ =>
              exact FileTree.keepsDirectories_write hWrite
  | create path text =>
      dsimp only [perform]
      rcases FileTree.create_cases t path text with
        hSame | ⟨place, _, hNone, hCreate⟩
      · rw [hSame]
        exact .refl t
      · rw [hCreate]
        apply FileTree.keepsDirectories_put
        rw [hNone]
        simp

theorem isRooted_perform
    (hRooted : t.IsRooted)
    (a : Action) :
    (a.perform t).2.IsRooted := by
  cases a with
  | ensureDir path =>
      exact hRooted.ensureDir path
  | read path =>
      exact hRooted
  | write path text =>
      exact hRooted.write path text
  | create path text =>
      exact hRooted.create path text

/- An action changes only places where it puts something. -/
theorem perform_cases
    (hPlain : a.IsPlain)
    (t : FileTree)
    (place : Location) :
    (a.perform t).2.at? place = t.at? place ∨
      ∃ n,
        a.Puts place n ∧
          (a.perform t).2.at? place = some n ∧
            (n = .directory → t.at? place = none) := by
  cases a with
  | ensureDir path =>
      rcases FileTree.addsDirectories_ensureDir_place
          hPlain.1 t place with
        hSame | ⟨hLead, hNone, hNew⟩
      · exact .inl hSame
      · exact .inr ⟨_, ⟨hLead, rfl⟩, hNew, fun _ => hNone⟩
  | read path =>
      exact .inl rfl
  | write path text =>
      by_cases hPlace : place = path.place
      · subst hPlace
        rcases FileTree.at?_place_write hPlain.1 t text with
          hSame | hNew
        · exact .inl hSame
        · exact .inr ⟨_, ⟨rfl, rfl⟩, hNew,
            by simp [Node.ofText]⟩
      · exact .inl (FileTree.at?_write_of_ne hPlain.1 hPlace t)
  | create path text =>
      by_cases hPlace : place = path.place
      · subst hPlace
        rcases FileTree.at?_place_create hPlain.1 t text with
          hSame | hNew
        · exact .inl hSame
        · exact .inr ⟨_, ⟨rfl, rfl⟩, hNew,
            by simp [Node.ofText]⟩
      · exact .inl
          (FileTree.at?_create_of_ne hPlain.1 hPlace t)

------------------------------------------------------------
-- Trees That Agree Where An Action Looks
------------------------------------------------------------

theorem barrierAlong?_alike
    {path : FilePath}
    {names : List String}
    (hAlike : (ensureDir path).Alike t u)
    (hNames : names <+: path.names) :
    t.barrierAlong? (Location.start path) names =
      u.barrierAlong? (Location.start path) names := by
  apply FileTree.barrierAlong?_congr
  intro front hFront _
  apply hAlike.passed
  exact (List.prefix_append_right_inj _).mpr
    (hFront.trans hNames)

theorem isOpen_alike
    {path : FilePath}
    (hAlike : (ensureDir path).Alike t u)
    (place : Location) :
    t.IsOpen (Location.start path) path.names place ↔
      u.IsOpen (Location.start path) path.names place := by
  unfold FileTree.IsOpen
  constructor
  · rintro ⟨front, hFront, hPlace, hClear⟩
    rw [barrierAlong?_alike hAlike hFront] at hClear
    exact ⟨front, hFront, hPlace, hClear⟩
  · rintro ⟨front, hFront, hPlace, hClear⟩
    rw [← barrierAlong?_alike hAlike hFront] at hClear
    exact ⟨front, hFront, hPlace, hClear⟩

theorem ensureDir_alike
    {path : FilePath}
    (hPlain : (ensureDir path).IsPlain)
    (hFirst : t.IsRooted)
    (hSecond : u.IsRooted)
    (hAlike : (ensureDir path).Alike t u) :
    (t.ensureDir path).1 = (u.ensureDir path).1 ∧
      FileTree.ChangedAlike (ensureDir path).Puts t u
        (t.ensureDir path).2 (u.ensureDir path).2 := by
  by_cases hLegal : path.text ≠ "" → FileTree.IsLegal path
  · have hMakes := hFirst.makesAlong_ensureDir hPlain.1
      hPlain.2 hLegal
    have hOther := hSecond.makesAlong_ensureDir hPlain.1
      hPlain.2 hLegal
    constructor
    · rw [hMakes.answer, hOther.answer]
      unfold FileTree.alongAnswer
      rw [barrierAlong?_alike hAlike List.prefix_rfl,
        barrierAlong?_alike hAlike (List.dropLast_prefix _)]
    · intro place
      have hOpen := isOpen_alike hAlike place
      by_cases hPlace :
          t.IsOpen (Location.start path) path.names place
      · right
        refine ⟨.directory, ⟨?_, rfl⟩,
          hMakes.opened place hPlace,
          hOther.opened place (hOpen.mp hPlace)⟩
        rcases hPlace with ⟨front, hFront, rfl, _⟩
        exact (List.prefix_append_right_inj _).mpr hFront
      · exact .inl ⟨hMakes.same place hPlace,
          hOther.same place (fun h => hPlace (hOpen.mpr h))⟩
  · rw [Classical.not_imp] at hLegal
    rcases FileTree.exists_ensureDir_of_not_isLegal hLegal.1
        hLegal.2 with ⟨fault, hFails⟩
    rw [hFails t, hFails u]
    exact ⟨rfl, FileTree.changedAlike_self _ t u⟩

theorem read_alike
    {path : FilePath}
    (hPlain : (read path).IsPlain)
    (hFirst : t.IsRooted)
    (hSecond : u.IsRooted)
    (hAlike : (read path).Alike t u) :
    t.readIfExists path = u.readIfExists path := by
  rcases hPlain with ⟨hForward, hEnds, hShort⟩
  by_cases hLegal : FileTree.IsLegal path
  · rcases hEnds.exists_names with ⟨front, last, hNames⟩
    have hBarrier :
        t.barrierAlong? (Location.start path) front =
          u.barrierAlong? (Location.start path) front := by
      apply FileTree.barrierAlong?_congr
      intro lead hLead _
      apply hAlike.passed
      have hLong := hLead.length_le
      constructor
      · apply (List.prefix_append_right_inj _).mpr
        rw [hNames]
        exact hLead.trans (List.prefix_append _ _)
      · intro hEq
        have hLength := congrArg List.length hEq
        unfold FilePath.place at hLength
        rw [hNames] at hLength
        simp at hLength
        omega
    rw [hFirst.readIfExists_eq hForward hEnds hLegal hNames
        hShort,
      hSecond.readIfExists_eq hForward hEnds hLegal hNames
        hShort, hBarrier, hAlike.watched path.place rfl]
  · rcases FileTree.exists_fault_of_not_isLegal hLegal with
      ⟨fault, _, hFails⟩
    unfold FileTree.readIfExists FileTree.read FileTree.locate
    rw [hFails t, hFails u]

theorem write_alike
    {path : FilePath}
    {text : String}
    (hPlain : (write path text).IsPlain)
    (hFirst : (write path text).IsReady t)
    (hSecond : (write path text).IsReady u)
    (hAlike : (write path text).Alike t u) :
    (t.write path text).1 = (u.write path text).1 ∧
      FileTree.ChangedAlike (write path text).Puts t u
        (t.write path text).2 (u.write path text).2 := by
  have hNode := hAlike.watched path.place rfl
  unfold FileTree.write FileTree.store
  rcases FileTree.exists_locateTrimmed_of_hasParent
      hPlain.1 hPlain.2 with hFound | ⟨fault, hFails⟩
  · rw [hFound t hFirst, hFound u hSecond]
    dsimp only
    rw [← hNode]
    by_cases hSlash : FileTree.EndsInSlash path
    · rw [if_pos hSlash, if_pos hSlash]
      exact ⟨rfl, FileTree.changedAlike_self _ t u⟩
    · rw [if_neg hSlash, if_neg hSlash]
      have hPut (hFree : t.at? path.place ≠ some .directory) :
          FileTree.ChangedAlike (write path text).Puts t u
            (t.put path.place (Node.ofText text))
            (u.put path.place (Node.ofText text)) :=
        FileTree.changedAlike_put ⟨rfl, rfl⟩
          (FileTree.not_isUpward hFree)
      cases hHere : t.at? path.place with
      | none =>
          exact ⟨rfl, hPut (by rw [hHere]; simp)⟩
      | some n =>
          cases n with
          | directory =>
              exact ⟨rfl, FileTree.changedAlike_self _ t u⟩
          | file content =>
              exact ⟨rfl, hPut (by rw [hHere]; simp)⟩
  · rw [hFails t hFirst, hFails u hSecond]
    exact ⟨rfl, FileTree.changedAlike_self _ t u⟩

theorem create_alike
    {path : FilePath}
    {text : String}
    (hPlain : (create path text).IsPlain)
    (hFirst : (create path text).IsReady t)
    (hSecond : (create path text).IsReady u)
    (hAlike : (create path text).Alike t u) :
    (t.create path text).1 = (u.create path text).1 ∧
      FileTree.ChangedAlike (create path text).Puts t u
        (t.create path text).2 (u.create path text).2 := by
  have hNode := hAlike.watched path.place rfl
  unfold FileTree.create
  rcases FileTree.exists_locateTrimmed_of_hasParent
      hPlain.1 hPlain.2 with hFound | ⟨fault, hFails⟩
  · rw [hFound t hFirst, hFound u hSecond]
    dsimp only
    rw [← hNode]
    by_cases hSlash : FileTree.EndsInSlash path
    · rw [if_pos hSlash, if_pos hSlash]
      exact ⟨rfl, FileTree.changedAlike_self _ t u⟩
    · rw [if_neg hSlash, if_neg hSlash]
      cases hHere : t.at? path.place with
      | none =>
          have hFree : t.at? path.place ≠ some .directory := by
            rw [hHere]
            simp
          exact ⟨rfl, FileTree.changedAlike_put ⟨rfl, rfl⟩
            (FileTree.not_isUpward hFree)⟩
      | some n =>
          exact ⟨rfl, FileTree.changedAlike_self _ t u⟩
  · rw [hFails t hFirst, hFails u hSecond]
    exact ⟨rfl, FileTree.changedAlike_self _ t u⟩

/-
  In two trees that agree where an action looks, it is given
  the same answer and makes the same change.
-/
theorem perform_alike
    (hPlain : a.IsPlain)
    (hFirst : t.IsRooted)
    (hSecond : u.IsRooted)
    (hReady : a.IsReady t)
    (hReadyToo : a.IsReady u)
    (hAlike : a.Alike t u) :
    (a.perform t).1 = (a.perform u).1 ∧
      FileTree.ChangedAlike a.Puts t u (a.perform t).2
        (a.perform u).2 := by
  cases a with
  | ensureDir path =>
      exact ensureDir_alike hPlain hFirst hSecond hAlike
  | read path =>
      exact ⟨read_alike hPlain hFirst hSecond hAlike,
        FileTree.changedAlike_self _ t u⟩
  | write path text =>
      exact write_alike hPlain hReady hReadyToo hAlike
  | create path text =>
      exact create_alike hPlain hReady hReadyToo hAlike

------------------------------------------------------------
-- Actions That Commute
------------------------------------------------------------

/-
  The second action puts nothing where the first one watches,
  and only directories where a file would be in its way.
-/
def Ignores (a b : Action) : Prop :=
  ∀ (place : Location) (n : Node),
    b.Puts place n →
      ¬ a.Watches place ∧ (a.Passes place → n = .directory)

/- Neither action puts anything where the other looks. -/
def Apart (a b : Action) : Prop :=
  a.Ignores b ∧ b.Ignores a

theorem Apart.symm (hApart : a.Apart b) : b.Apart a :=
  And.symm hApart

/- An ignored action leaves what is looked at alike. -/
theorem Ignores.alike
    (hIgnores : a.Ignores b)
    (hPlain : b.IsPlain)
    (t : FileTree) :
    a.Alike t (b.perform t).2 := by
  constructor
  · intro place hWatched
    rcases perform_cases hPlain t place with
      hSame | ⟨n, hPuts, _⟩
    · exact hSame.symm
    · exact absurd hWatched (hIgnores place n hPuts).1
  · intro place hPassed
    unfold FileTree.HasFile
    rcases perform_cases hPlain t place with
      hSame | ⟨n, hPuts, hNew, hOld⟩
    · rw [hSame]
    · have hDirectory := (hIgnores place n hPuts).2 hPassed
      subst hDirectory
      rw [hNew, hOld rfl]
      simp

theorem Alike.refl
    (a : Action)
    (t : FileTree) :
    a.Alike t t :=
  ⟨fun _ _ => rfl, fun _ _ => Iff.rfl⟩

theorem Alike.trans
    {v : FileTree}
    (hFirst : a.Alike t u)
    (hSecond : a.Alike u v) :
    a.Alike t v :=
  ⟨fun place hWatched =>
      (hFirst.watched place hWatched).trans
        (hSecond.watched place hWatched),
    fun place hPassed =>
      (hFirst.passed place hPassed).trans
        (hSecond.passed place hPassed)⟩

theorem alike_of_same
    (hSame : t.Same u)
    (a : Action) :
    a.Alike t u := by
  refine ⟨fun place _ => hSame place, fun place _ => ?_⟩
  unfold FileTree.HasFile
  rw [hSame place]

/- A change made alike keeps what is alike. -/
theorem Alike.of_changedAlike
    {puts : Location → Node → Prop}
    {changed other : FileTree}
    (hAlike : a.Alike t u)
    (hChanged :
      FileTree.ChangedAlike puts t u changed other) :
    a.Alike changed other := by
  constructor
  · intro place hWatched
    rcases hChanged place with
      ⟨hFirst, hSecond⟩ | ⟨n, _, hFirst, hSecond⟩
    · rw [hFirst, hSecond]
      exact hAlike.watched place hWatched
    · rw [hFirst, hSecond]
  · intro place hPassed
    unfold FileTree.HasFile
    rcases hChanged place with
      ⟨hFirst, hSecond⟩ | ⟨n, _, hFirst, hSecond⟩
    · rw [hFirst, hSecond]
      exact hAlike.passed place hPassed
    · rw [hFirst, hSecond]

/- Actions apart put the same where both put something. -/
theorem Apart.puts_eq
    {place : Location}
    {n m : Node}
    (hApart : a.Apart b)
    (hFirst : a.Puts place n)
    (hSecond : b.Puts place m) :
    n = m := by
  have hNotFirst := (hApart.1 place m hSecond).1
  have hNotSecond := (hApart.2 place n hFirst).1
  cases a with
  | ensureDir path =>
      cases b with
      | ensureDir other =>
          exact hFirst.2.trans hSecond.2.symm
      | read other =>
          cases hSecond
      | write other text =>
          exact absurd hSecond.1 hNotSecond
      | create other text =>
          exact absurd hSecond.1 hNotSecond
  | read path =>
      cases hFirst
  | write path text =>
      exact absurd hFirst.1 hNotFirst
  | create path text =>
      exact absurd hFirst.1 hNotFirst

/-
  Actions apart commute: the answer to the second is the same
  whether or not the first was taken before, and both orders
  end in the same tree.
-/
theorem perform_comm
    (hApart : a.Apart b)
    (hPlain : a.IsPlain)
    (hPlainToo : b.IsPlain)
    (hRooted : t.IsRooted)
    (hReady : a.IsReady t)
    (hReadyToo : b.IsReady t) :
    (a.perform (b.perform t).2).1 = (a.perform t).1 ∧
      (a.perform (b.perform t).2).2.Same
        (b.perform (a.perform t).2).2 := by
  have hKeepsFirst := keepsDirectories_perform a t
  have hKeepsSecond := keepsDirectories_perform b t
  have hFirst := perform_alike hPlain hRooted
    (isRooted_perform hRooted b) hReady
    (hReady.of_keepsDirectories hKeepsSecond)
    (hApart.1.alike hPlainToo t)
  have hSecond := perform_alike hPlainToo hRooted
    (isRooted_perform hRooted a) hReadyToo
    (hReadyToo.of_keepsDirectories hKeepsFirst)
    (hApart.2.alike hPlain t)
  refine ⟨hFirst.1.symm, ?_⟩
  intro place
  rcases hFirst.2 place with
    ⟨hOne, hTwo⟩ | ⟨n, hPuts, hOne, hTwo⟩
  · rw [hTwo]
    rcases hSecond.2 place with
      ⟨hThree, hFour⟩ | ⟨m, _, hThree, hFour⟩
    · rw [hFour, hThree, hOne]
    · rw [hFour, hThree]
  · rw [hTwo]
    rcases hSecond.2 place with
      ⟨_, hFour⟩ | ⟨m, hPutsToo, _, hFour⟩
    · rw [hFour, hOne]
    · rw [hFour, hApart.puts_eq hPuts hPutsToo]

end Action

end Palimpsest
