import Palimpsest.Proofs.Files.Place
import Palimpsest.Proofs.Files.Write

/-
  What the operations on a file tree leave alone.

  Making directories adds directories at places where nothing
  was, and nowhere but on the way to the path.  Writing to a
  file touches the place of its path and no other, and does
  nothing when it fails.

  Main declarations:
    * `FileTree.AddsDirectories`
    * `FileTree.addsDirectories_ensureDir`
    * `FileTree.addsDirectories_ensureDir_place`
    * `FileTree.KeepsFiles`
    * `FileTree.at?_write_of_ne`
    * `FileTree.at?_create_of_ne`
-/

namespace Palimpsest

namespace FileTree

variable {t u v : FileTree} {path : FilePath}
variable {allowed : Location → Prop}

------------------------------------------------------------
-- Adding Directories
------------------------------------------------------------

/-
  The second tree is the first one with directories added, at
  allowed places where nothing was.
-/
def AddsDirectories
    (allowed : Location → Prop)
    (t u : FileTree) : Prop :=
  ∀ place : Location,
    u.at? place = t.at? place ∨
      allowed place ∧ t.at? place = none ∧
        u.at? place = some .directory

theorem AddsDirectories.refl
    (allowed : Location → Prop)
    (t : FileTree) :
    AddsDirectories allowed t t :=
  fun _ => .inl rfl

theorem AddsDirectories.trans
    (hFirst : AddsDirectories allowed t u)
    (hSecond : AddsDirectories allowed u v) :
    AddsDirectories allowed t v := by
  intro place
  rcases hSecond place with hSame | ⟨hPlace, hNone, hNew⟩
  · rw [hSame]
    exact hFirst place
  · rcases hFirst place with hSame | ⟨_, _, hOld⟩
    · rw [hSame] at hNone
      exact .inr ⟨hPlace, hNone, hNew⟩
    · rw [hOld] at hNone
      cases hNone

theorem addsDirectories_put
    {place : Location}
    (hPlace : allowed place)
    (hNone : t.at? place = none) :
    AddsDirectories allowed t (t.put place .directory) := by
  have hFree : t.at? place ≠ some .directory := by
    rw [hNone]
    simp
  intro other
  rw [at?_put (not_isUpward hFree)]
  by_cases hOther : other = place
  · subst hOther
    exact .inr ⟨hPlace, hNone, if_pos rfl⟩
  · exact .inl (if_neg hOther)

/- The path leads to allowed places only, in any tree. -/
def LeadsInto
    (allowed : Location → Prop)
    (path : FilePath) : Prop :=
  ∀ (t : FileTree) (place : Location),
    t.locateTrimmed path = .ok place → allowed place

theorem addsDirectories_makeDir
    (hPath : LeadsInto allowed path)
    (hMake : t.makeDir path = .ok u) :
    AddsDirectories allowed t u := by
  unfold makeDir at hMake
  cases hLocate : t.locateTrimmed path with
  | error fault =>
      simp [hLocate] at hMake
  | ok place =>
      rw [hLocate] at hMake
      dsimp only at hMake
      cases hNode : t.at? place with
      | some n =>
          simp [hNode] at hMake
      | none =>
          rw [hNode] at hMake
          cases hMake
          exact addsDirectories_put (hPath t place hLocate)
            hNode

theorem addsDirectories_makeDirIfAbsent
    (hPath : LeadsInto allowed path)
    (t : FileTree) :
    AddsDirectories allowed t (t.makeDirIfAbsent path).2 := by
  unfold makeDirIfAbsent
  cases hMake : t.makeDir path with
  | ok made =>
      exact addsDirectories_makeDir hPath hMake
  | error fault =>
      dsimp only
      split <;> exact AddsDirectories.refl allowed t

theorem addsDirectories_ensureDirFrom
    {parents : List FilePath}
    (hPath : LeadsInto allowed path)
    (hParents : ∀ parent ∈ parents,
      LeadsInto allowed parent)
    (t : FileTree) :
    AddsDirectories allowed t
      (ensureDirFrom path parents t).2 := by
  induction parents generalizing path t with
  | nil =>
      rw [ensureDirFrom]
      split
      · exact .refl allowed t
      · exact addsDirectories_makeDirIfAbsent hPath t
  | cons parent rest ih =>
      rw [List.forall_mem_cons] at hParents
      have hAbove := ih hParents.1 hParents.2 t
      rw [ensureDirFrom]
      split
      · exact .refl allowed t
      · split
        · split
          · rename_i hEnsure
            rw [hEnsure] at hAbove
            exact hAbove
          · rename_i hEnsure
            rw [hEnsure] at hAbove
            exact hAbove.trans
              (addsDirectories_makeDirIfAbsent hPath _)
        · exact addsDirectories_makeDirIfAbsent hPath t

theorem addsDirectories_ensureDir
    (path : FilePath)
    (t : FileTree) :
    AddsDirectories (fun _ => True) t (t.ensureDir path).2 :=
  addsDirectories_ensureDirFrom (fun _ _ _ => trivial)
    (fun _ _ _ _ _ => trivial) t

/- What is above a path lies on the way to its place. -/
theorem forward_of_mem_parentsUpTo
    {count : Nat}
    (hForward : path.IsForward)
    {parent : FilePath}
    (hParent : parent ∈ parentsUpTo count path) :
    parent.IsForward ∧ parent.place <+: path.place := by
  induction count generalizing path with
  | zero =>
      cases hParent
  | succ count ih =>
      rw [parentsUpTo] at hParent
      cases hAbove : path.parent? with
      | none =>
          rw [hAbove] at hParent
          cases hParent
      | some above =>
          have hIs := FilePath.isParent_of_parent? hAbove
          rw [hAbove] at hParent
          rcases List.mem_cons.mp hParent with hEq | hMem
          · subst hEq
            exact ⟨hIs.forward hForward, hIs.place_prefix⟩
          · rcases ih (hIs.forward hForward) hMem with
              ⟨hGoes, hPrefix⟩
            exact ⟨hGoes, hPrefix.trans hIs.place_prefix⟩

/- Directories are made on the way to the place of a path. -/
theorem addsDirectories_ensureDir_place
    (hForward : path.IsForward)
    (t : FileTree) :
    AddsDirectories (fun place => place <+: path.place) t
      (t.ensureDir path).2 := by
  apply addsDirectories_ensureDirFrom
  · intro t place hLocate
    exact eq_place_of_locateTrimmed hForward hLocate ▸
      List.prefix_rfl
  · intro parent hParent t place hLocate
    rcases forward_of_mem_parentsUpTo hForward hParent with
      ⟨hGoes, hPrefix⟩
    rw [eq_place_of_locateTrimmed hGoes hLocate]
    exact hPrefix

------------------------------------------------------------
-- Keeping Files
------------------------------------------------------------

/- The two trees have the same files with the same bytes. -/
def KeepsFiles (t u : FileTree) : Prop :=
  ∀ (place : Location) (content : ByteArray),
    u.at? place = some (.file content) ↔
      t.at? place = some (.file content)

theorem AddsDirectories.keepsFiles
    (hAdds : AddsDirectories allowed t u) :
    t.KeepsFiles u := by
  intro place content
  rcases hAdds place with hSame | ⟨_, hNone, hNew⟩
  · rw [hSame]
  · rw [hNone, hNew]
    simp

theorem AddsDirectories.keepsDirectories
    (hAdds : AddsDirectories allowed t u) :
    t.KeepsDirectories u := by
  intro place hNode
  rcases hAdds place with hSame | ⟨_, hNone, _⟩
  · rw [hSame]
    exact hNode
  · rw [hNone] at hNode
    cases hNode

------------------------------------------------------------
-- Writing
------------------------------------------------------------

variable {text : String} {other : Location}

/- A text that could not be written changes nothing. -/
theorem eq_of_write_eq_error
    {fault : FileFault}
    (hWrite : t.write path text = (.error fault, u)) :
    u = t := by
  unfold write store at hWrite
  split at hWrite
  · cases hWrite
    rfl
  · split at hWrite
    · cases hWrite
      rfl
    · split at hWrite
      · cases hWrite
        rfl
      · cases hWrite

/- Writing touches the place of the path and no other. -/
theorem at?_write_of_ne
    (hForward : path.IsForward)
    (hOther : other ≠ path.place)
    (t : FileTree) :
    (t.write path text).2.at? other = t.at? other := by
  cases hWrite : t.write path text with
  | mk answer u =>
      cases answer with
      | error fault =>
          rw [eq_of_write_eq_error hWrite]
      | ok _ =>
          rcases write_eq_ok_iff.mp hWrite with
            ⟨place, hLocate, _, hNode, rfl⟩
          rw [← eq_place_of_locateTrimmed hForward hLocate]
            at hOther
          rw [at?_put (not_isUpward hNode), if_neg hOther]

/- What stands at the place of the path after writing to it. -/
theorem at?_place_write
    (hForward : path.IsForward)
    (t : FileTree)
    (text : String) :
    (t.write path text).2.at? path.place =
        t.at? path.place ∨
      (t.write path text).2.at? path.place =
        some (Node.ofText text) := by
  cases hWrite : t.write path text with
  | mk answer u =>
      cases answer with
      | error fault =>
          rw [eq_of_write_eq_error hWrite]
          exact .inl rfl
      | ok _ =>
          rcases write_eq_ok_iff.mp hWrite with
            ⟨place, hLocate, _, hNode, rfl⟩
          rw [← eq_place_of_locateTrimmed hForward hLocate]
          exact .inr (by
            rw [at?_put (not_isUpward hNode), if_pos rfl])

/-
  A text is written to a new file where a path leads to
  nothing, and nowhere else is anything changed.
-/
theorem create_cases
    (t : FileTree)
    (path : FilePath)
    (text : String) :
    (t.create path text).2 = t ∨
      ∃ place,
        t.locateTrimmed path = .ok place ∧
          t.at? place = none ∧
            t.create path text =
              (.ok true, t.put place (Node.ofText text)) := by
  unfold create
  cases hLocate : t.locateTrimmed path with
  | error fault =>
      exact .inl rfl
  | ok place =>
      by_cases hSlash : EndsInSlash path
      · simp [hSlash]
      · cases hNode : t.at? place with
        | some n =>
            simp [hSlash, hNode]
        | none =>
            simp [hSlash, hNode]

theorem at?_create_of_ne
    (hForward : path.IsForward)
    (hOther : other ≠ path.place)
    (t : FileTree) :
    (t.create path text).2.at? other = t.at? other := by
  rcases create_cases t path text with
    hSame | ⟨place, hLocate, hNode, hCreate⟩
  · rw [hSame]
  · have hFree : t.at? place ≠ some .directory := by
      rw [hNode]
      simp
    rw [← eq_place_of_locateTrimmed hForward hLocate]
      at hOther
    rw [hCreate, at?_put (not_isUpward hFree),
      if_neg hOther]

/- What stands at the place of the path after creating it. -/
theorem at?_place_create
    (hForward : path.IsForward)
    (t : FileTree)
    (text : String) :
    (t.create path text).2.at? path.place =
        t.at? path.place ∨
      (t.create path text).2.at? path.place =
        some (Node.ofText text) := by
  rcases create_cases t path text with
    hSame | ⟨place, hLocate, hNode, hCreate⟩
  · rw [hSame]
    exact .inl rfl
  · have hFree : t.at? place ≠ some .directory := by
      rw [hNode]
      simp
    rw [← eq_place_of_locateTrimmed hForward hLocate, hCreate]
    exact .inr (by
      rw [at?_put (not_isUpward hFree), if_pos rfl])

end FileTree

end Palimpsest
