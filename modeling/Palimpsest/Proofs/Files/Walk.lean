import Mathlib.Data.List.TakeWhile
import Palimpsest.Files.Tree

/-
  How paths lead through a file tree.

  A walk passes directories only, and everything on the way
  from the start to the place it reaches is a directory.  A
  tree that keeps the directories of another one keeps its
  walks.  Slashes at the end of a path lead nowhere else; they
  only ask for a directory.

  Main declarations:
    * `FileTree.KeepsDirectories`
    * `FileTree.Leads`
    * `FileTree.walk_append_eq_ok_iff`
    * `FileTree.locateTrimmed_of_locate`
    * `FileTree.locate_of_not_directory`
-/

namespace Palimpsest

------------------------------------------------------------
-- Slashes At The End Of A Path
------------------------------------------------------------

namespace Text

/- Joining an empty part last adds one separator. -/
theorem intercalate_append_nil
    {parts : List (List Char)}
    (hParts : parts ≠ [])
    (separator : Char) :
    [separator].intercalate (parts ++ [[]]) =
      [separator].intercalate parts ++ [separator] := by
  induction parts with
  | nil =>
      exact absurd rfl hParts
  | cons first rest ih =>
      cases rest with
      | nil =>
          simp
      | cons second rest =>
          have hRest := ih (by simp)
          simp only [List.cons_append,
            List.intercalate_cons_cons] at hRest ⊢
          rw [hRest]
          simp

/- A text whose last part is empty ends in the separator. -/
theorem getLast?_of_splitAt_append
    {separator : Char}
    {text : String}
    {parts : List String}
    (hSplit : splitAt separator text = parts ++ [""])
    (hParts : parts ≠ []) :
    text.toList.getLast? = some separator := by
  have hChars :
      text.toList.splitOn separator =
        parts.map String.toList ++ [[]] := by
    have hMap := congrArg (List.map String.toList) hSplit
    unfold splitAt at hMap
    rw [List.map_map, List.map_append] at hMap
    simpa [Function.comp_def] using hMap
  have hJoin :
      [separator].intercalate
          (text.toList.splitOn separator) = text.toList :=
    List.intercalate_splitOn separator
  rw [hChars,
    intercalate_append_nil (by simpa using hParts)] at hJoin
  rw [← hJoin]
  simp

end Text

namespace FileTree

/- A path is cut into its trimmed pieces and empty ones. -/
theorem pieces_eq_trimmedPieces_append (path : FilePath) :
    ∃ count,
      path.pieces =
        trimmedPieces path ++ List.replicate count "" := by
  have hEmpty : ∀ piece ∈ path.pieces.reverse.takeWhile
      (fun piece => decide (piece = "")), piece = "" := by
    intro piece hPiece
    simpa using List.mem_takeWhile_imp hPiece
  have hCut :=
    List.takeWhile_append_dropWhile
      (p := fun piece : String => decide (piece = ""))
      (l := path.pieces.reverse)
  refine ⟨(path.pieces.reverse.takeWhile
    (fun piece => decide (piece = ""))).length, ?_⟩
  rw [← List.reverse_replicate,
    ← List.eq_replicate_of_mem hEmpty]
  unfold trimmedPieces
  rw [← List.reverse_append, hCut, List.reverse_reverse]

end FileTree

------------------------------------------------------------
-- Directories That Are Always There
------------------------------------------------------------

namespace FileTree

variable {t u : FileTree} {place other : Location}

/- There is always a directory above the root. -/
theorem at?_of_isUpward
    (t : FileTree)
    (hPlace : place.IsUpward) :
    t.at? place = some .directory :=
  if_pos hPlace

/- A place without a directory is not above the root. -/
theorem not_isUpward
    (hPlace : t.at? place ≠ some .directory) :
    ¬ place.IsUpward :=
  fun hUpward => hPlace (t.at?_of_isUpward hUpward)

/- Every directory of the first tree is one of the second. -/
def KeepsDirectories (t u : FileTree) : Prop :=
  ∀ place : Location,
    t.at? place = some .directory →
      u.at? place = some .directory

/- Putting something where no directory is keeps them all. -/
theorem keepsDirectories_put
    (hPlace : t.at? place ≠ some .directory)
    (n : Node) :
    t.KeepsDirectories (t.put place n) := by
  intro other hOther
  have hNe : other ≠ place := by
    intro hEq
    subst hEq
    exact hPlace hOther
  rw [at?_put (not_isUpward hPlace), if_neg hNe]
  exact hOther

------------------------------------------------------------
-- Walks
------------------------------------------------------------

/- One step of a walk that goes on. -/
theorem walk_cons_eq_ok_iff
    {piece : String}
    {rest : List String} :
    t.walk place (piece :: rest) = .ok other ↔
      t.at? place = some .directory ∧
        piece.utf8ByteSize ≤ maxNameSize ∧
          t.walk (place.advance piece) rest = .ok other := by
  rw [walk]
  cases hNode : t.at? place with
  | none =>
      simp
  | some n =>
      cases n with
      | file content =>
          simp
      | directory =>
          by_cases hSize : maxNameSize < piece.utf8ByteSize
          · simp [hSize, Nat.not_le.mpr hSize]
          · simp [hSize, Nat.not_lt.mp hSize]

/- A walk along two lists of pieces is two walks. -/
theorem walk_append_eq_ok_iff
    {first second : List String} :
    t.walk place (first ++ second) = .ok other ↔
      ∃ middle,
        t.walk place first = .ok middle ∧
          t.walk middle second = .ok other := by
  induction first generalizing place with
  | nil =>
      simp [walk]
  | cons piece first ih =>
      rw [List.cons_append, walk_cons_eq_ok_iff, ih]
      simp only [walk_cons_eq_ok_iff]
      constructor
      · rintro ⟨hNode, hSize, middle, hFirst, hSecond⟩
        exact ⟨middle, ⟨hNode, hSize, hFirst⟩, hSecond⟩
      · rintro ⟨middle, ⟨hNode, hSize, hFirst⟩, hSecond⟩
        exact ⟨hNode, hSize, middle, hFirst, hSecond⟩

/- An empty piece stays where it is, in a directory. -/
theorem walk_replicate_eq_ok_iff {count : Nat} :
    t.walk place (List.replicate count "") = .ok other ↔
      other = place ∧
        (count ≠ 0 → t.at? place = some .directory) := by
  induction count with
  | zero =>
      simp [walk, eq_comm]
  | succ count ih =>
      have hSize : ("" : String).utf8ByteSize ≤ maxNameSize :=
        by decide
      have hStay : place.advance "" = place :=
        if_pos (Or.inl rfl)
      rw [List.replicate_succ, walk_cons_eq_ok_iff, hStay, ih]
      constructor
      · rintro ⟨hNode, _, hOther, _⟩
        exact ⟨hOther, fun _ => hNode⟩
      · rintro ⟨hOther, hNode⟩
        have hNode := hNode (Nat.succ_ne_zero count)
        exact ⟨hNode, hSize, hOther, fun _ => hNode⟩

/- A tree that keeps directories keeps walks. -/
theorem KeepsDirectories.walk
    (hKeeps : t.KeepsDirectories u)
    {pieces : List String}
    (hWalk : t.walk place pieces = .ok other) :
    u.walk place pieces = .ok other := by
  induction pieces generalizing place with
  | nil =>
      exact hWalk
  | cons piece rest ih =>
      rw [walk_cons_eq_ok_iff] at hWalk ⊢
      exact ⟨hKeeps place hWalk.1, hWalk.2.1,
        ih hWalk.2.2⟩

------------------------------------------------------------
-- What Leads To A Place
------------------------------------------------------------

/- Everything on the way to a place is a directory. -/
def Leads (t : FileTree) (place : Location) : Prop :=
  ∀ lead : Location,
    lead <+: place → lead ≠ place →
      t.at? lead = some .directory

/- Nothing has to lead to the start of a path. -/
theorem leads_start
    (t : FileTree)
    (path : FilePath) :
    t.Leads (Location.start path) := by
  intro lead hLead hNe
  have hEmpty : lead = [] := by
    unfold Location.start at hLead hNe
    split at hLead
    · rename_i hAbsolute
      rw [if_pos hAbsolute] at hNe
      unfold Location.top at hLead hNe
      rw [List.prefix_cons_iff] at hLead
      rcases hLead with hNil | ⟨rest, hRest, hPrefix⟩
      · exact hNil
      · rw [List.prefix_nil] at hPrefix
        rw [hPrefix] at hRest
        exact absurd hRest hNe
    · exact List.prefix_nil.mp hLead
  rw [hEmpty]
  exact t.at?_of_isUpward (Or.inr (by simp))

/- A directory that is led to leads to what is in it. -/
theorem Leads.append
    (hLeads : t.Leads place)
    (hNode : t.at? place = some .directory)
    (step : String) :
    t.Leads (place ++ [step]) := by
  intro lead hLead hNe
  rcases List.prefix_concat_iff.mp hLead with hAll | hFront
  · exact absurd hAll hNe
  · by_cases hEq : lead = place
    · rw [hEq]
      exact hNode
    · exact hLeads lead hFront hEq

/- What leads to a place leads to the place above it. -/
theorem Leads.up
    (hLeads : t.Leads place)
    (hNode : t.at? place = some .directory) :
    t.Leads place.up ∧ t.at? place.up = some .directory := by
  unfold Location.up
  split
  · exact ⟨hLeads, hNode⟩
  · rename_i hTop
    split
    · rename_i hUpward
      refine ⟨hLeads.append hNode _, ?_⟩
      apply t.at?_of_isUpward
      right
      intro step hStep
      rcases List.mem_append.mp hStep with hOld | hNew
      · exact hUpward.resolve_left hTop step hOld
      · exact List.mem_singleton.mp hNew
    · rename_i hUpward
      have hDrop : place.dropLast ≠ place := by
        intro hEq
        have hLength := congrArg List.length hEq
        rw [List.length_dropLast] at hLength
        have hNil : place = [] :=
          List.length_eq_zero_iff.mp (by omega)
        subst hNil
        exact hUpward (Or.inr (by simp))
      constructor
      · intro lead hLead hNe
        refine hLeads lead
          (hLead.trans place.dropLast_prefix) ?_
        intro hEq
        subst hEq
        exact hDrop
          (hLead.eq_of_length_le
            (by rw [List.length_dropLast]; omega)).symm
      · exact hLeads _ place.dropLast_prefix hDrop

/- One step keeps everything on the way a directory. -/
theorem Leads.advance
    (hLeads : t.Leads place)
    (hNode : t.at? place = some .directory)
    (piece : String) :
    t.Leads (place.advance piece) := by
  unfold Location.advance
  split
  · exact hLeads
  · split
    · exact (hLeads.up hNode).1
    · exact hLeads.append hNode piece

/- A walk keeps everything on the way a directory. -/
theorem Leads.walk
    (hLeads : t.Leads place)
    {pieces : List String}
    (hWalk : t.walk place pieces = .ok other) :
    t.Leads other := by
  induction pieces generalizing place with
  | nil =>
      cases hWalk
      exact hLeads
  | cons piece rest ih =>
      rw [walk_cons_eq_ok_iff] at hWalk
      exact ih (hLeads.advance hWalk.1 piece) hWalk.2.2

/- A walk that ends in dots ends in a directory. -/
theorem Leads.at?_of_walk_dots
    (hLeads : t.Leads place)
    {pieces : List String}
    {last : String}
    (hLast : last = "." ∨ last = "..")
    (hWalk : t.walk place (pieces ++ [last]) = .ok other) :
    t.at? other = some .directory := by
  rcases walk_append_eq_ok_iff.mp hWalk with
    ⟨middle, hFirst, hSecond⟩
  have hMiddle := hLeads.walk hFirst
  rw [walk_cons_eq_ok_iff] at hSecond
  rcases hSecond with ⟨hNode, _, hRest⟩
  cases hRest
  unfold Location.advance
  rcases hLast with hDot | hDots
  · subst hDot
    rw [if_pos (by decide)]
    exact hNode
  · subst hDots
    rw [if_neg (by decide), if_pos rfl]
    exact (hMiddle.up hNode).2

------------------------------------------------------------
-- Looking Up Paths
------------------------------------------------------------

/- A path that can be looked up at all. -/
def IsLegal (path : FilePath) : Prop :=
  '\x00' ∉ path.text.toList ∧ path.text ≠ "" ∧
    path.text.utf8ByteSize ≤ maxPathSize

/- A legal path leads where the walk along it leads. -/
theorem locatePieces_eq_ok_iff
    {path : FilePath}
    {pieces : List String} :
    t.locatePieces path pieces = .ok place ↔
      IsLegal path ∧
        t.walk (Location.start path) pieces = .ok place := by
  unfold locatePieces IsLegal
  by_cases hZero : '\x00' ∈ path.text.toList
  · simp [hZero]
  · by_cases hEmpty : path.text = ""
    · simp [hEmpty]
    · by_cases hSize : maxPathSize < path.text.utf8ByteSize
      · simp [hZero, hEmpty, hSize, Nat.not_le.mpr hSize]
      · simp [hZero, hEmpty, hSize, Nat.not_lt.mp hSize]

/- A tree that keeps directories keeps where paths lead. -/
theorem KeepsDirectories.locatePieces
    (hKeeps : t.KeepsDirectories u)
    {path : FilePath}
    {pieces : List String}
    (hLocate : t.locatePieces path pieces = .ok place) :
    u.locatePieces path pieces = .ok place := by
  rw [locatePieces_eq_ok_iff] at hLocate ⊢
  exact ⟨hLocate.1, hKeeps.walk hLocate.2⟩

/- A path leads to a directory when a directory is there. -/
theorem isDirectory_iff {path : FilePath} :
    t.IsDirectory path ↔
      ∃ place,
        t.locate path = .ok place ∧
          t.at? place = some .directory := by
  unfold IsDirectory
  cases t.locate path with
  | error fault =>
      simp
  | ok place =>
      cases hNode : t.at? place with
      | none =>
          simp [hNode]
      | some n =>
          cases n <;> simp [hNode, Node.IsDirectory]

/- A tree that keeps directories keeps paths to them. -/
theorem KeepsDirectories.isDirectory
    (hKeeps : t.KeepsDirectories u)
    {path : FilePath}
    (hPath : t.IsDirectory path) :
    u.IsDirectory path := by
  rw [isDirectory_iff] at hPath ⊢
  rcases hPath with ⟨place, hLocate, hNode⟩
  exact ⟨place, hKeeps.locatePieces hLocate,
    hKeeps place hNode⟩

/- Slashes at the end of a path change nothing else. -/
theorem locateTrimmed_of_locate
    {path : FilePath}
    (hLocate : t.locate path = .ok place) :
    t.locateTrimmed path = .ok place := by
  unfold locate at hLocate
  unfold locateTrimmed
  rcases pieces_eq_trimmedPieces_append path with
    ⟨count, hPieces⟩
  rw [locatePieces_eq_ok_iff, hPieces,
    walk_append_eq_ok_iff] at hLocate
  rcases hLocate with ⟨hLegal, middle, hFirst, hSecond⟩
  rw [walk_replicate_eq_ok_iff] at hSecond
  rw [locatePieces_eq_ok_iff, hSecond.1]
  exact ⟨hLegal, hFirst⟩

/- Slashes may follow a path that leads to a directory. -/
theorem locate_of_directory
    {path : FilePath}
    (hLocate : t.locateTrimmed path = .ok place)
    (hNode : t.at? place = some .directory) :
    t.locate path = .ok place := by
  unfold locateTrimmed at hLocate
  unfold locate
  rcases pieces_eq_trimmedPieces_append path with
    ⟨count, hPieces⟩
  rw [locatePieces_eq_ok_iff] at hLocate
  rw [locatePieces_eq_ok_iff, hPieces, walk_append_eq_ok_iff]
  exact ⟨hLocate.1, place, hLocate.2,
    walk_replicate_eq_ok_iff.mpr ⟨rfl, fun _ => hNode⟩⟩

/-
  A path that leads to no directory and does not end in a
  slash has no slashes to trim.
-/
theorem locate_of_not_directory
    {path : FilePath}
    (hLocate : t.locateTrimmed path = .ok place)
    (hSlash : ¬ EndsInSlash path)
    (hNode : t.at? place ≠ some .directory) :
    t.locate path = .ok place := by
  unfold locateTrimmed at hLocate
  unfold locate
  rcases pieces_eq_trimmedPieces_append path with
    ⟨count, hPieces⟩
  rw [locatePieces_eq_ok_iff] at hLocate
  have hLeads := t.leads_start path
  cases count with
  | zero =>
      rw [List.replicate_zero, List.append_nil] at hPieces
      rw [locatePieces_eq_ok_iff, hPieces]
      exact hLocate
  | succ count =>
      exfalso
      rcases List.eq_nil_or_concat (trimmedPieces path) with
        hNil | ⟨front, last, hTrimmed⟩
      · -- Only slashes: the path leads to where it starts.
        rw [hNil] at hLocate
        cases hLocate.2
        apply hNode
        apply t.at?_of_isUpward
        unfold Location.start
        split
        · exact Or.inl rfl
        · exact Or.inr (by simp)
      · rw [List.concat_eq_append] at hTrimmed
        rw [hTrimmed] at hLocate
        by_cases hDots : last = "." ∨ last = ".."
        · exact hNode (hLeads.at?_of_walk_dots hDots hLocate.2)
        · apply hSlash
          unfold EndsInSlash
          rw [hTrimmed, List.getLast?_concat]
          rw [not_or] at hDots
          refine ⟨hDots.1, hDots.2, ?_⟩
          have hSplit :
              Text.splitAt FilePath.separator path.text =
                (trimmedPieces path ++
                  List.replicate count "") ++ [""] := by
            rw [List.append_assoc, ← List.replicate_succ']
            exact hPieces
          exact Text.getLast?_of_splitAt_append hSplit
            (by simp [hTrimmed])

end FileTree

end Palimpsest
