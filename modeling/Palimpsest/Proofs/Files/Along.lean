import Palimpsest.Proofs.Files.Rooted

/-
  What the operations do along a path that never steps up.

  In a rooted tree, making a directory fails at the first
  barrier along the names of its path and makes every
  directory before it.  Reading fails at a file on the way,
  and otherwise depends on what is at the place of the path.
  So does writing in a directory that is there.

  Main declarations:
    * `FilePath.EndsInName`
    * `FileTree.MakesAlong`
    * `FileTree.IsRooted.makesAlong_ensureDir`
    * `FileTree.IsRooted.readIfExists_eq`
    * `FileTree.IsRooted.readIfExists_of_later`
    * `FileTree.locate_of_walk_front`
-/

namespace Palimpsest

------------------------------------------------------------
-- Paths That End In A Name
------------------------------------------------------------

namespace FilePath

/- The last piece of the path is a name. -/
def EndsInName (path : FilePath) : Prop :=
  ∃ last ∈ path.pieces.getLast?, ¬ IsIdle last

theorem EndsInName.getLast?
    {path : FilePath}
    (hEnds : path.EndsInName) :
    ∀ last ∈ path.pieces.getLast?, ¬ IsIdle last := by
  rcases hEnds with ⟨name, hName, hNot⟩
  intro last hLast
  rw [Option.mem_def] at hName hLast
  rw [hName] at hLast
  cases hLast
  exact hNot

/- A path that ends in a name has a last name. -/
theorem EndsInName.exists_names
    {path : FilePath}
    (hEnds : path.EndsInName) :
    ∃ front last, path.names = front ++ [last] := by
  rcases List.eq_nil_or_concat path.names with
    hNil | ⟨front, last, hNames⟩
  · rcases hEnds with ⟨last, hLast, hNot⟩
    exact absurd (namesOf_eq_nil_iff.mp hNil last
      (List.mem_of_getLast? hLast)) hNot
  · rw [List.concat_eq_append] at hNames
    exact ⟨front, last, hNames⟩

end FilePath

namespace FileTree

variable {t u v : FileTree} {path : FilePath}
variable {place : Location} {front names : List String}
variable {last : String} {fault : FileFault}

theorem trimmedPieces_of_endsInName
    (hEnds : path.EndsInName) :
    trimmedPieces path = path.pieces := by
  rcases hEnds with ⟨last, hLast, hNot⟩
  rcases List.getLast?_eq_some_iff.mp hLast with
    ⟨front, hPieces⟩
  have hName : last ≠ "" :=
    fun hEmpty => hNot (.inl hEmpty)
  unfold trimmedPieces
  rw [hPieces, List.reverse_concat,
    List.dropWhile_cons_of_neg (by simpa using hName)]
  simp

theorem locatePieces_of_isLegal
    (hLegal : IsLegal path)
    (t : FileTree)
    (pieces : List String) :
    t.locatePieces path pieces =
      t.walk (Location.start path) pieces := by
  rcases hLegal with ⟨hZero, hText, hSize⟩
  unfold locatePieces
  rw [if_neg hZero, if_neg hText,
    if_neg (Nat.not_lt.mpr hSize)]

/- A path that cannot be looked up fails in every tree. -/
theorem exists_fault_of_not_isLegal
    (hLegal : ¬ IsLegal path) :
    ∃ fault,
      (path.text ≠ "" → fault ≠ .notFound) ∧
        ∀ (t : FileTree) (pieces : List String),
          t.locatePieces path pieces = .error fault := by
  unfold locatePieces
  by_cases hZero : '\x00' ∈ path.text.toList
  · exact ⟨.invalidName, by simp, by simp [hZero]⟩
  · by_cases hText : path.text = ""
    · exact ⟨.notFound, by simp [hText], by simp [hText]⟩
    · by_cases hSize : maxPathSize < path.text.utf8ByteSize
      · exact ⟨.nameTooLong, by simp,
          by simp [hZero, hText, hSize]⟩
      · exact absurd
          ⟨hZero, hText, Nat.not_lt.mp hSize⟩ hLegal

/- A path that ends in a name leads along its names. -/
theorem locate_of_endsInName
    (hEnds : path.EndsInName)
    (hLegal : IsLegal path)
    (t : FileTree) :
    t.locate path =
      t.walk (Location.start path) path.names := by
  unfold locate FilePath.names
  rw [locatePieces_of_isLegal hLegal,
    walk_namesOf hEnds.getLast?]

theorem locateTrimmed_of_endsInName
    (hEnds : path.EndsInName)
    (t : FileTree) :
    t.locateTrimmed path = t.locate path := by
  unfold locate locateTrimmed
  rw [trimmedPieces_of_endsInName hEnds]

/- There is a directory where paths start. -/
theorem at?_start
    (t : FileTree)
    (path : FilePath) :
    t.at? (Location.start path) = some .directory := by
  apply t.at?_of_isUpward
  unfold Location.start
  split
  · exact .inl rfl
  · exact .inr (by simp)

/- Where the walk to a last name passes directories only. -/
theorem IsRooted.walk_of_passes
    (hRooted : t.IsRooted)
    (hNames : AreNames (front ++ [last]))
    (hPasses : t.Passes place front)
    (hClear : t.barrierAlong? place front = none) :
    t.walk place (front ++ [last]) =
      if maxNameSize < last.utf8ByteSize then
        .error .nameTooLong
      else
        .ok (place ++ front ++ [last]) := by
  have hHere := hPasses [] List.nil_prefix
  rw [List.append_nil] at hHere
  have hEnds := hRooted.walkEnds hHere hNames
  generalize t.walk place (front ++ [last]) = result at hEnds ⊢
  cases hEnds with
  | arrived _ _ =>
      rfl
  | missing hNone _ =>
      rw [hPasses front List.prefix_rfl] at hNone
      cases hNone
  | stopped hBarrier _ =>
      rw [hClear] at hBarrier
      cases hBarrier

------------------------------------------------------------
-- Directories Along Names
------------------------------------------------------------

/-
  The answer to making directories along names: the first
  barrier, if there is one.  A file at the very end is no
  obstacle on the way, it is there already.
-/
def alongAnswer
    (t : FileTree)
    (place : Location)
    (names : List String) : Except FileFault Unit :=
  match t.barrierAlong? place names with
  | none => .ok ()
  | some .notDirectory =>
      if t.barrierAlong? place names.dropLast = none then
        .error .alreadyExists
      else
        .error .notDirectory
  | some fault => .error fault

/- A place along the names, before the first barrier. -/
def IsOpen
    (t : FileTree)
    (place : Location)
    (names : List String)
    (other : Location) : Prop :=
  ∃ front,
    front <+: names ∧ other = place ++ front ∧
      t.barrierAlong? place front = none

/-
  Directories were made along names: at every place before the
  first barrier there is one, and nothing else was changed.
-/
structure MakesAlong
    (t : FileTree)
    (place : Location)
    (names : List String)
    (result : Except FileFault Unit × FileTree) : Prop where
  answer : result.1 = t.alongAnswer place names
  opened : ∀ other,
    t.IsOpen place names other →
      result.2.at? other = some .directory
  same : ∀ other,
    ¬ t.IsOpen place names other →
      result.2.at? other = t.at? other

theorem alongAnswer_of_long
    (hBarrier :
      t.barrierAlong? place names = some .nameTooLong) :
    t.alongAnswer place names = .error .nameTooLong := by
  unfold alongAnswer
  rw [hBarrier]

theorem alongAnswer_of_clear
    (hClear : t.barrierAlong? place names = none) :
    t.alongAnswer place names = .ok () := by
  unfold alongAnswer
  rw [hClear]

/- A barrier in front of the last name is the answer. -/
theorem alongAnswer_concat_of_front
    (hBarrier : t.barrierAlong? place front = some fault) :
    t.alongAnswer place (front ++ [last]) = .error fault := by
  have hAll :
      t.barrierAlong? place (front ++ [last]) =
        some fault := by
    rw [barrierAlong?_concat, hBarrier]
  unfold alongAnswer
  rw [hAll, List.dropLast_concat, hBarrier]
  rcases barrierAlong?_cases hBarrier with rfl | rfl
  · rfl
  · rfl

/- Behind a barrier no place is open. -/
theorem isOpen_concat_of_barrier
    {other : Location}
    (hBarrier :
      t.barrierAlong? place (front ++ [last]) = some fault) :
    t.IsOpen place (front ++ [last]) other ↔
      t.IsOpen place front other := by
  constructor
  · rintro ⟨lead, hLead, hOther, hClear⟩
    rcases List.prefix_concat_iff.mp hLead with hAll | hFront
    · rw [hAll, hBarrier] at hClear
      cases hClear
    · exact ⟨lead, hFront, hOther, hClear⟩
  · rintro ⟨lead, hLead, hOther, hClear⟩
    exact ⟨lead, hLead.trans (List.prefix_append _ _), hOther,
      hClear⟩

/- Nothing is changed when all open places are directories. -/
theorem makesAlong_self
    {answer : Except FileFault Unit}
    (hAnswer : answer = t.alongAnswer place names)
    (hOpen : ∀ other,
      t.IsOpen place names other →
        t.at? other = some .directory) :
    MakesAlong t place names (answer, t) :=
  ⟨hAnswer, hOpen, fun _ _ => rfl⟩

theorem isDirectory_iff_of_locate
    (hLocate : t.locate path = .ok place) :
    t.IsDirectory path ↔ t.at? place = some .directory := by
  rw [isDirectory_iff, hLocate]
  simp

/- A path that leads nowhere is no directory. -/
theorem makeDirIfAbsent_of_error
    (hTrimmed : t.locateTrimmed path = .error fault)
    (hLocate : t.locate path = .error fault) :
    t.makeDirIfAbsent path = (.error fault, t) := by
  have hNot : ¬ t.IsDirectory path := by
    rw [isDirectory_iff, hLocate]
    simp
  unfold makeDirIfAbsent makeDir
  rw [hTrimmed]
  exact if_neg hNot

/- Making one directory where a path leads to. -/
theorem makeDirIfAbsent_of_locate
    (hTrimmed : t.locateTrimmed path = .ok place)
    (hLocate : t.locate path = .ok place) :
    t.makeDirIfAbsent path =
      match t.at? place with
      | none => (.ok (), t.put place .directory)
      | some .directory => (.ok (), t)
      | some (.file _) => (.error .alreadyExists, t) := by
  have hDirectory := isDirectory_iff_of_locate hLocate
  unfold makeDirIfAbsent makeDir
  rw [hTrimmed]
  dsimp only
  cases hNode : t.at? place with
  | none =>
      rfl
  | some n =>
      rw [hNode] at hDirectory
      cases n with
      | directory =>
          exact if_pos (hDirectory.mpr rfl)
      | file content =>
          apply if_neg
          rw [hDirectory]
          simp

/- Nothing is in the way, and the last directory is there. -/
theorem makesAlong_of_clear
    (hPasses : t.Passes place front)
    (hClear : t.barrierAlong? place (front ++ [last]) = none)
    (hNew :
      u.at? (place ++ front ++ [last]) = some .directory)
    (hSame : ∀ other,
      other ≠ place ++ front ++ [last] →
        u.at? other = t.at? other) :
    MakesAlong t place (front ++ [last]) (.ok (), u) := by
  refine ⟨(alongAnswer_of_clear hClear).symm, ?_, ?_⟩
  · rintro other ⟨lead, hLead, rfl, _⟩
    rcases List.prefix_concat_iff.mp hLead with
      hAll | hBefore
    · rw [hAll, ← List.append_assoc]
      exact hNew
    · have hShort := hBefore.length_le
      rw [hSame]
      · exact hPasses lead hBefore
      · intro hEq
        have hLength := congrArg List.length hEq
        simp only [List.length_append, List.length_singleton]
          at hLength
        omega
  · intro other hClosed
    apply hSame
    intro hEq
    exact hClosed ⟨_, List.prefix_rfl,
      hEq.trans (List.append_assoc ..), hClear⟩

/- The last name is a barrier, so nothing is changed. -/
theorem makesAlong_of_barrier
    {answer : FileFault}
    (hPasses : t.Passes place front)
    (hBarrier :
      t.barrierAlong? place (front ++ [last]) = some fault)
    (hAnswer :
      t.alongAnswer place (front ++ [last]) = .error answer) :
    MakesAlong t place (front ++ [last])
      (.error answer, t) := by
  apply makesAlong_self hAnswer.symm
  intro other hOpen
  rw [isOpen_concat_of_barrier hBarrier] at hOpen
  rcases hOpen with ⟨lead, hLead, rfl, _⟩
  exact hPasses lead hLead

/-
  Making one directory in a directory that is there makes all
  directories along its names.
-/
theorem IsRooted.makesAlong_makeDirIfAbsent
    (hRooted : t.IsRooted)
    (hForward : path.IsForward)
    (hEnds : path.EndsInName)
    (hLegal : IsLegal path)
    (hNames : path.names = front ++ [last])
    (hPasses : t.Passes (Location.start path) front)
    (hClear :
      t.barrierAlong? (Location.start path) front = none) :
    MakesAlong t (Location.start path) (front ++ [last])
      (t.makeDirIfAbsent path) := by
  have hSteps := areNames_of_isForward hForward
  rw [hNames] at hSteps
  have hWalk := hRooted.walk_of_passes hSteps hPasses hClear
  have hLocate := locate_of_endsInName hEnds hLegal t
  have hTrimmed := locateTrimmed_of_endsInName hEnds t
  rw [hNames, hWalk] at hLocate
  rw [hLocate] at hTrimmed
  generalize Location.start path = start at *
  have hBarrier :
      t.barrierAlong? start (front ++ [last]) =
        t.barrier? (start ++ front) last := by
    rw [barrierAlong?_concat, hClear]
  by_cases hLong : maxNameSize < last.utf8ByteSize
  · rw [barrier?_of_long hLong] at hBarrier
    rw [if_pos hLong] at hLocate hTrimmed
    rw [makeDirIfAbsent_of_error hTrimmed hLocate]
    exact makesAlong_of_barrier hPasses hBarrier
      (alongAnswer_of_long hBarrier)
  · rw [if_neg hLong] at hLocate hTrimmed
    rw [makeDirIfAbsent_of_locate hTrimmed hLocate]
    cases hNode : t.at? (start ++ front ++ [last]) with
    | none =>
        have hPlace :
            t.at? (start ++ front ++ [last]) ≠
              some .directory := by
          rw [hNode]
          simp
        have hPut := at?_put (not_isUpward hPlace)
          Node.directory t
        rw [barrier?_of_not_file hLong
          (not_hasFile_of_at? hNode (by simp))] at hBarrier
        apply makesAlong_of_clear hPasses hBarrier
        · rw [hPut, if_pos rfl]
        · intro other hOther
          rw [hPut, if_neg hOther]
    | some n =>
        cases n with
        | directory =>
            rw [barrier?_of_not_file hLong
              (not_hasFile_of_at? hNode (by simp))]
              at hBarrier
            exact makesAlong_of_clear hPasses hBarrier hNode
              (fun _ _ => rfl)
        | file content =>
            rw [barrier?_of_file hLong hNode] at hBarrier
            apply makesAlong_of_barrier hPasses hBarrier
            unfold alongAnswer
            rw [hBarrier, List.dropLast_concat]
            exact if_pos hClear

/- Making directories along names adds no barriers. -/
theorem MakesAlong.hasFile_iff
    {result : Except FileFault Unit × FileTree}
    (hMakes : MakesAlong t place names result)
    (hHere : t.at? place = some .directory)
    (other : Location) :
    result.2.HasFile other ↔ t.HasFile other := by
  by_cases hOpen : t.IsOpen place names other
  · have hNew := hMakes.opened other hOpen
    have hOld : ¬ t.HasFile other := by
      rcases hOpen with ⟨lead, _, rfl, hClear⟩
      rintro ⟨content, hFile⟩
      rcases List.eq_nil_or_concat lead with
        rfl | ⟨before, name, hLead⟩
      · rw [List.append_nil, hHere] at hFile
        cases hFile
      · rw [List.concat_eq_append] at hLead
        rw [hLead, barrierAlong?_concat] at hClear
        rw [hLead, ← List.append_assoc] at hFile
        split at hClear
        · cases hClear
        · rw [barrier?_eq_none_iff] at hClear
          exact hClear.2 ⟨content, hFile⟩
    refine iff_of_false ?_ hOld
    rintro ⟨content, hFile⟩
    rw [hNew] at hFile
    cases hFile
  · unfold HasFile
    rw [hMakes.same other hOpen]

/- The directories in front first, and then all of them. -/
theorem MakesAlong.concat
    {answer : Except FileFault Unit}
    {result : Except FileFault Unit × FileTree}
    (hFirst : MakesAlong t place front (answer, u))
    (hSecond : MakesAlong u place (front ++ [last]) result)
    (hHere : t.at? place = some .directory) :
    MakesAlong t place (front ++ [last]) result := by
  have hBarrier (names : List String) :
      u.barrierAlong? place names =
        t.barrierAlong? place names :=
    barrierAlong?_congr
      (fun _ _ _ => hFirst.hasFile_iff hHere _)
  have hOpen (other : Location) :
      u.IsOpen place (front ++ [last]) other ↔
        t.IsOpen place (front ++ [last]) other := by
    unfold IsOpen
    simp only [hBarrier]
  refine ⟨?_, ?_, ?_⟩
  · rw [hSecond.answer]
    unfold alongAnswer
    rw [hBarrier, hBarrier]
  · intro other hHas
    exact hSecond.opened other ((hOpen other).mpr hHas)
  · intro other hClosed
    rw [hSecond.same other
      (fun hHas => hClosed ((hOpen other).mp hHas))]
    apply hFirst.same
    rintro ⟨lead, hLead, hOther, hClear⟩
    exact hClosed ⟨lead,
      hLead.trans (List.prefix_append _ _), hOther, hClear⟩

/- A barrier in front of the last name ends it all. -/
theorem MakesAlong.concat_of_long
    {result : Except FileFault Unit × FileTree}
    (hMakes : MakesAlong t place front result)
    (hBarrier :
      t.barrierAlong? place front = some .nameTooLong) :
    MakesAlong t place (front ++ [last]) result := by
  have hAll :
      t.barrierAlong? place (front ++ [last]) =
        some .nameTooLong := by
    rw [barrierAlong?_concat, hBarrier]
  refine ⟨?_, ?_, ?_⟩
  · rw [hMakes.answer, alongAnswer_of_long hBarrier,
      alongAnswer_of_long hAll]
  · intro other hOpen
    exact hMakes.opened other
      ((isOpen_concat_of_barrier hAll).mp hOpen)
  · intro other hClosed
    apply hMakes.same other
    rw [← isOpen_concat_of_barrier hAll]
    exact hClosed

------------------------------------------------------------
-- Directories With All That Leads To Them
------------------------------------------------------------

theorem walk_of_idle
    {pieces : List String}
    (hPieces : ∀ piece ∈ pieces, FilePath.IsIdle piece)
    (hHere : t.at? place = some .directory) :
    t.walk place pieces = .ok place := by
  induction pieces with
  | nil =>
      rfl
  | cons piece rest ih =>
      rw [List.forall_mem_cons] at hPieces
      have hSize : piece.utf8ByteSize ≤ maxNameSize := by
        rcases hPieces.1 with rfl | rfl <;> decide
      rw [walk_cons_eq_ok_iff,
        Location.advance_of_idle hPieces.1]
      exact ⟨hHere, hSize, ih hPieces.2⟩

theorem ensureDirFrom_of_empty
    (hText : path.text = "")
    (parents : List FilePath)
    (t : FileTree) :
    ensureDirFrom path parents t = (.ok (), t) := by
  cases parents <;> rw [ensureDirFrom, if_pos hText]

/- A path without names leads to a directory. -/
theorem ensureDirFrom_of_names_nil
    (hLegal : path.text ≠ "" → IsLegal path)
    (hNames : path.names = [])
    (parents : List FilePath)
    (t : FileTree) :
    ensureDirFrom path parents t = (.ok (), t) := by
  by_cases hText : path.text = ""
  · exact ensureDirFrom_of_empty hText parents t
  · apply ensureDirFrom_of_isDirectory
    rw [isDirectory_iff]
    refine ⟨Location.start path, ?_, t.at?_start path⟩
    unfold locate
    rw [locatePieces_of_isLegal (hLegal hText)]
    exact walk_of_idle
      (FilePath.namesOf_eq_nil_iff.mp hNames)
      (t.at?_start path)

theorem makeDir_of_error
    (hTrimmed : t.locateTrimmed path = .error fault) :
    t.makeDir path = .error fault := by
  unfold makeDir
  rw [hTrimmed]

/- Making a directory finds what leads to it. -/
theorem makeDir_ne_notFound
    (hTrimmed : t.locateTrimmed path ≠ .error .notFound) :
    t.makeDir path ≠ .error .notFound := by
  unfold makeDir
  cases hLocate : t.locateTrimmed path with
  | error fault =>
      rw [hLocate] at hTrimmed
      exact fun hEq => hTrimmed (by cases hEq; rfl)
  | ok place =>
      dsimp only
      split <;> simp

theorem ensureDirFrom_cons_of_ne
    {parent : FilePath}
    {rest : List FilePath}
    (hText : path.text ≠ "")
    (hMake : t.makeDir path ≠ .error .notFound) :
    ensureDirFrom path (parent :: rest) t =
      t.makeDirIfAbsent path := by
  rw [ensureDirFrom, if_neg hText]
  split
  · rename_i hError
    exact absurd hError hMake
  · rfl

theorem ensureDirFrom_cons_of_notFound
    {parent : FilePath}
    {rest : List FilePath}
    (hText : path.text ≠ "")
    (hMake : t.makeDir path = .error .notFound) :
    ensureDirFrom path (parent :: rest) t =
      match ensureDirFrom parent rest t with
      | (.error fault, u) => (.error fault, u)
      | (.ok (), u) => u.makeDirIfAbsent path := by
  cases hRest : ensureDirFrom parent rest t with
  | mk answer u =>
      cases answer with
      | error fault =>
          simp [ensureDirFrom, hText, hMake, hRest]
      | ok _ =>
          simp [ensureDirFrom, hText, hMake, hRest]

theorem text_ne_of_names
    (hNames : path.names ≠ []) :
    path.text ≠ "" := by
  intro hText
  apply hNames
  unfold FilePath.names FilePath.pieces
  rw [hText]
  decide

/- A path above a path that can be looked up. -/
theorem isLegal_of_isParent
    {parent : FilePath}
    (hParent : parent.IsParent path)
    (hLegal : IsLegal path)
    (hText : parent.text ≠ "") :
    IsLegal parent := by
  rcases hLegal with ⟨hZero, _, hSize⟩
  rcases hParent.text with ⟨rest, hRest⟩
  have hWhole :
      path.text = parent.text ++ String.ofList rest := by
    apply String.toList_inj.mp
    rw [String.toList_append, String.toList_ofList, hRest]
  refine ⟨fun hIn => hZero ?_, hText, ?_⟩
  · rw [← hRest]
    exact List.mem_append_left _ hIn
  · rw [hWhole, String.utf8ByteSize_append] at hSize
    omega

/- How looking up a path that ends in a name ends. -/
theorem IsRooted.walkEnds_locate
    (hRooted : t.IsRooted)
    (hForward : path.IsForward)
    (hEnds : path.EndsInName)
    (hLegal : IsLegal path)
    (hNames : path.names = front ++ [last]) :
    WalkEnds t (Location.start path) front last
      (t.locate path) := by
  have hSteps := areNames_of_isForward hForward
  rw [hNames] at hSteps
  rw [locate_of_endsInName hEnds hLegal, hNames]
  exact hRooted.walkEnds (t.at?_start path) hSteps

/- When something in front of the last name is missing. -/
theorem makesAlong_of_missing
    (hForward : path.IsForward)
    (hEnds : path.EndsInName)
    (hLegal : IsLegal path)
    (hNames : path.names = front ++ [last])
    (hBarrier : ∀ fault ∈
      t.barrierAlong? (Location.start path) front,
        fault = .nameTooLong)
    (hRooted : u.IsRooted)
    {answer : Except FileFault Unit}
    (hAbove :
      MakesAlong t (Location.start path) front (answer, u)) :
    MakesAlong t (Location.start path) (front ++ [last])
      (match (answer, u) with
        | (.error fault, u) => (.error fault, u)
        | (.ok (), u) => u.makeDirIfAbsent path) := by
  have hHere := t.at?_start path
  have hAnswer : answer = t.alongAnswer _ front :=
    hAbove.answer
  cases hAlong :
      t.barrierAlong? (Location.start path) front with
  | some fault =>
      have hLong := hBarrier fault hAlong
      subst hLong
      rw [alongAnswer_of_long hAlong] at hAnswer
      subst hAnswer
      exact hAbove.concat_of_long hAlong
  | none =>
      rw [alongAnswer_of_clear hAlong] at hAnswer
      subst hAnswer
      have hPasses : u.Passes (Location.start path) front := by
        intro lead hLead
        exact hAbove.opened _ ⟨lead, hLead, rfl,
          barrierAlong?_of_prefix hAlong hLead⟩
      have hClear :
          u.barrierAlong? (Location.start path) front =
            none := by
        rw [← hAlong]
        exact barrierAlong?_congr
          (fun _ _ _ => hAbove.hasFile_iff hHere _)
      exact hAbove.concat
        (hRooted.makesAlong_makeDirIfAbsent hForward
          hEnds hLegal hNames hPasses hClear) hHere

/- A path without names is a directory already. -/
theorem makesAlong_of_names_nil
    (hLegal : path.text ≠ "" → IsLegal path)
    (hNames : path.names = [])
    (parents : List FilePath)
    (t : FileTree) :
    MakesAlong t (Location.start path) path.names
      (ensureDirFrom path parents t) := by
  rw [ensureDirFrom_of_names_nil hLegal hNames, hNames]
  apply makesAlong_self rfl
  rintro other ⟨lead, hLead, rfl, _⟩
  rw [List.prefix_nil.mp hLead, List.append_nil]
  exact t.at?_start path

/- When there is a barrier in front of the last name. -/
theorem makesAlong_of_stopped
    {place : Location}
    (hBarrier : t.barrierAlong? place front = some fault)
    (hPasses : ∀ lead,
      lead <+: front → t.barrierAlong? place lead = none →
        t.at? (place ++ lead) = some .directory)
    (last : String) :
    MakesAlong t place (front ++ [last]) (.error fault, t) := by
  apply makesAlong_self
    (alongAnswer_concat_of_front hBarrier).symm
  rintro other ⟨lead, hLead, rfl, hClear⟩
  rcases List.prefix_concat_iff.mp hLead with hAll | hBefore
  · rw [hAll, barrierAlong?_concat, hBarrier] at hClear
    cases hClear
  · exact hPasses lead hBefore hClear

/-
  One name more.  The directories that lead to the path are
  made only when something is missing in front of it.
-/
theorem IsRooted.makesAlong_ensureDirFrom_cons
    (hRooted : t.IsRooted)
    {parent : FilePath}
    {rest : List FilePath}
    (hForward : path.IsForward)
    (hEnds : path.EndsInName)
    (hLegal : IsLegal path)
    (hNames : path.names = front ++ [last])
    (hAbove : MakesAlong t (Location.start path) front
      (FileTree.ensureDirFrom parent rest t)) :
    MakesAlong t (Location.start path) (front ++ [last])
      (FileTree.ensureDirFrom path (parent :: rest) t) := by
  have hSome : path.names ≠ [] := by
    rw [hNames]
    simp
  have hText := text_ne_of_names hSome
  have hStop :=
    hRooted.walkEnds_locate hForward hEnds hLegal hNames
  have hFound := locateTrimmed_of_endsInName hEnds t
  generalize hLocate : t.locate path = result at hStop
  rw [hLocate] at hFound
  cases hStop with
  | arrived hPasses hClear =>
      have hMake : t.makeDir path ≠ .error .notFound := by
        apply makeDir_ne_notFound
        rw [hFound]
        split <;> simp
      rw [ensureDirFrom_cons_of_ne hText hMake]
      exact hRooted.makesAlong_makeDirIfAbsent hForward
        hEnds hLegal hNames hPasses hClear
  | missing _ hBarrier =>
      rw [ensureDirFrom_cons_of_notFound hText
        (makeDir_of_error hFound)]
      exact makesAlong_of_missing hForward hEnds hLegal
        hNames hBarrier (hRooted.ensureDirFrom parent) hAbove
  | @stopped fault hBarrier hPasses =>
      have hMake : t.makeDir path ≠ .error .notFound := by
        apply makeDir_ne_notFound
        rw [hFound]
        rcases barrierAlong?_cases hBarrier with
          rfl | rfl <;> simp
      rw [ensureDirFrom_cons_of_ne hText hMake,
        makeDirIfAbsent_of_error hFound hLocate]
      exact makesAlong_of_stopped hBarrier hPasses last

/-
  Making a directory, with all directories that lead to it,
  makes the directories along its names.
-/
theorem IsRooted.makesAlong_ensureDirFrom
    (hRooted : t.IsRooted)
    {count : Nat}
    (hForward : path.IsForward)
    (hTrimmed : path.IsTrimmed)
    (hLegal : path.text ≠ "" → IsLegal path)
    (hCount : path.names.length ≤ count) :
    MakesAlong t (Location.start path) path.names
      (FileTree.ensureDirFrom path
        (parentsUpTo count path) t) := by
  induction count generalizing path with
  | zero =>
      exact makesAlong_of_names_nil hLegal
        (List.length_eq_zero_iff.mp (by omega)) _ t
  | succ count ih =>
      rcases List.eq_nil_or_concat path.names with
        hNil | ⟨front, last, hNames⟩
      · exact makesAlong_of_names_nil hLegal hNil _ t
      rw [List.concat_eq_append] at hNames
      have hSome : path.names ≠ [] := by
        rw [hNames]
        simp
      have hPath := hLegal (text_ne_of_names hSome)
      rcases FilePath.exists_parent_of_names hNames with
        ⟨parent, hParent, hIs, hFront⟩
      have hAbove := ih (hIs.forward hForward) hIs.trimmed
        (isLegal_of_isParent hIs hPath) (by
          rw [hNames, List.length_append] at hCount
          rw [hFront]
          simpa using hCount)
      rw [hIs.start, hFront] at hAbove
      rw [hNames, parentsUpTo, hParent]
      exact hRooted.makesAlong_ensureDirFrom_cons hForward
        (hTrimmed.resolve_left hSome) hPath hNames hAbove

/- A path has at most one name for each character, and one. -/
theorem length_names_le (path : FilePath) :
    path.names.length ≤ path.text.length + 1 := by
  have hPieces (parts : List String) :
      parts.length ≤
        (Text.joinWith "/" parts).toList.length + 1 := by
    induction parts with
    | nil =>
        simp
    | cons first rest ih =>
        by_cases hRest : rest = []
        · simp [hRest]
        · have hSlash : "/".toList.length = 1 := by
            decide
          rw [Text.toList_joinWith_cons "/" first hRest,
            List.length_append, List.length_append, hSlash,
            List.length_cons]
          omega
  have hNames : path.names.length ≤ path.pieces.length :=
    List.length_filter_le ..
  have hText := hPieces path.pieces
  rw [FilePath.text_eq_joinWith, String.length_toList] at hText
  omega

theorem IsRooted.makesAlong_ensureDir
    (hRooted : t.IsRooted)
    (hForward : path.IsForward)
    (hTrimmed : path.IsTrimmed)
    (hLegal : path.text ≠ "" → IsLegal path) :
    MakesAlong t (Location.start path) path.names
      (t.ensureDir path) :=
  hRooted.makesAlong_ensureDirFrom hForward hTrimmed hLegal
    (length_names_le path)

/- A path that cannot be looked up fails in every tree. -/
theorem exists_ensureDir_of_not_isLegal
    (hText : path.text ≠ "")
    (hLegal : ¬ IsLegal path) :
    ∃ fault, ∀ t : FileTree,
      t.ensureDir path = (.error fault, t) := by
  rcases exists_fault_of_not_isLegal hLegal with
    ⟨fault, hFault, hFails⟩
  refine ⟨fault, fun t => ?_⟩
  have hAbsent : t.makeDirIfAbsent path = (.error fault, t) :=
    makeDirIfAbsent_of_error (hFails t _) (hFails t _)
  have hMake : t.makeDir path ≠ .error .notFound := by
    rw [makeDir_of_error (hFails t _)]
    simpa using hFault hText
  unfold ensureDir
  cases parents path with
  | nil =>
      rw [ensureDirFrom, if_neg hText, hAbsent]
  | cons parent rest =>
      rw [ensureDirFrom_cons_of_ne hText hMake, hAbsent]

------------------------------------------------------------
-- Reading
------------------------------------------------------------

/- What reading gives where a node is, or nothing. -/
def textOf? : Option Node → Except FileFault (Option String)
| none => .ok none
| some .directory => .error .isDirectory
| some (.file content) =>
    match String.fromUTF8? content with
    | none => .error .notText
    | some text => .ok (some text)

theorem readIfExists_of_locate
    (hLocate : t.locate path = .ok place) :
    t.readIfExists path = textOf? (t.at? place) := by
  unfold readIfExists read
  rw [hLocate]
  dsimp only
  cases t.at? place with
  | none =>
      rfl
  | some n =>
      cases n with
      | directory =>
          rfl
      | file content =>
          unfold textOf?
          dsimp only
          cases String.fromUTF8? content <;> rfl

/- Short names are no barriers. -/
theorem barrierAlong?_of_short
    (hShort : ∀ name ∈ names, name.utf8ByteSize ≤ maxNameSize)
    (hBarrier : t.barrierAlong? place names = some fault) :
    fault = .notDirectory := by
  induction names generalizing place with
  | nil =>
      cases hBarrier
  | cons name rest ih =>
      rw [List.forall_mem_cons] at hShort
      rw [barrierAlong?] at hBarrier
      by_cases hFile : t.HasFile (place ++ [name])
      · rcases hFile with ⟨content, hNode⟩
        rw [barrier?_of_file (Nat.not_lt.mpr hShort.1) hNode]
          at hBarrier
        cases hBarrier
        rfl
      · rw [barrier?_of_not_file (Nat.not_lt.mpr hShort.1)
          hFile] at hBarrier
        exact ih hShort.2 hBarrier

/-
  Reading a path whose names are short enough fails at a file
  on the way, and otherwise depends on the place it leads to.
-/
theorem IsRooted.readIfExists_eq
    (hRooted : t.IsRooted)
    (hForward : path.IsForward)
    (hEnds : path.EndsInName)
    (hLegal : IsLegal path)
    (hNames : path.names = front ++ [last])
    (hShort : ∀ name ∈ path.names,
      name.utf8ByteSize ≤ maxNameSize) :
    t.readIfExists path =
      match t.barrierAlong? (Location.start path) front with
      | some fault => .error fault
      | none => textOf? (t.at? path.place) := by
  have hPlace :
      path.place = Location.start path ++ front ++ [last] := by
    unfold FilePath.place
    rw [hNames, List.append_assoc]
  have hFront : ∀ name ∈ front,
      name.utf8ByteSize ≤ maxNameSize := by
    intro name hName
    apply hShort
    rw [hNames]
    exact List.mem_append_left _ hName
  have hLast : last.utf8ByteSize ≤ maxNameSize := by
    apply hShort
    rw [hNames]
    exact List.mem_append_right _ List.mem_cons_self
  have hStop :=
    hRooted.walkEnds_locate hForward hEnds hLegal hNames
  generalize hLocate : t.locate path = result at hStop
  cases hStop with
  | arrived _ hClear =>
      rw [if_neg (Nat.not_lt.mpr hLast), ← hPlace] at hLocate
      rw [hClear]
      exact readIfExists_of_locate hLocate
  | missing hNone hBarrier =>
      have hClear :
          t.barrierAlong? (Location.start path) front =
            none := by
        cases hAlong :
            t.barrierAlong? (Location.start path) front with
        | none =>
            rfl
        | some fault =>
            have hFile := barrierAlong?_of_short hFront hAlong
            rw [hBarrier fault hAlong] at hFile
            cases hFile
      have hNothing := hRooted.at?_append_of_none hNone [last]
      rw [hClear, hPlace, hNothing]
      unfold readIfExists read
      rw [hLocate]
      rfl
  | @stopped fault hBarrier _ =>
      have hFile := barrierAlong?_of_short hFront hBarrier
      subst hFile
      rw [hBarrier]
      unfold readIfExists read
      rw [hLocate]

/- Where nothing is, at most nothing is read. -/
theorem eq_none_of_readIfExists
    {previous : Option String}
    (hForward : path.IsForward)
    (hNone : t.at? path.place = none)
    (hRead : t.readIfExists path = .ok previous) :
    previous = none := by
  cases hLocate : t.locate path with
  | ok place =>
      rw [readIfExists_of_locate hLocate,
        eq_place_of_locate hForward hLocate, hNone] at hRead
      cases hRead
      rfl
  | error fault =>
      unfold readIfExists read at hRead
      rw [hLocate] at hRead
      cases fault <;> cases hRead
      rfl

/- What cannot be found is not at the place of its path. -/
theorem IsRooted.at?_of_notFound
    (hRooted : t.IsRooted)
    (hForward : path.IsForward)
    (hEnds : path.EndsInName)
    (hLegal : IsLegal path)
    (hMissing : t.locate path = .error .notFound) :
    t.at? path.place = none := by
  rcases hEnds.exists_names with ⟨front, last, hNames⟩
  have hStop :=
    hRooted.walkEnds_locate hForward hEnds hLegal hNames
  generalize t.locate path = result at hMissing hStop
  cases hStop with
  | arrived _ _ =>
      split at hMissing <;> cases hMissing
  | missing hNone _ =>
      unfold FilePath.place
      rw [hNames, ← List.append_assoc]
      exact hRooted.at?_append_of_none hNone [last]
  | stopped hBarrier _ =>
      rcases barrierAlong?_cases hBarrier with rfl | rfl <;>
        cases hMissing

/-
  When directories were added and files on the way were kept,
  a walk ends as before unless something was missing.
-/
theorem walk_eq_of_later
    (hNames : AreNames names)
    (hKeeps : t.KeepsDirectories u)
    (hFiles : ∀ front,
      front <+: names → front ≠ names →
        t.HasFile (place ++ front) →
          u.HasFile (place ++ front)) :
    t.walk place names = .error .notFound ∨
      u.walk place names = t.walk place names := by
  induction names generalizing place with
  | nil =>
      exact .inr rfl
  | cons name rest ih =>
      cases hHere : t.at? place with
      | none =>
          exact .inl (walk_of_none hHere (by simp))
      | some n =>
          cases n with
          | file content =>
              have hLater := hFiles [] List.nil_prefix
                (by simp)
              rw [List.append_nil] at hLater
              rcases hLater ⟨content, hHere⟩ with
                ⟨other, hThere⟩
              rw [walk_of_file hHere (by simp),
                walk_of_file hThere (by simp)]
              exact .inr rfl
          | directory =>
              rw [walk, walk, hHere, hKeeps place hHere]
              dsimp only
              split
              · exact .inr rfl
              · rw [hNames.advance]
                apply ih hNames.tail
                intro front hFront hNe
                rw [List.append_assoc, List.singleton_append]
                exact hFiles (name :: front)
                  (List.cons_prefix_cons.mpr ⟨rfl, hFront⟩)
                  (by simpa using hNe)

/-
  What is read after others have added directories, and kept
  the files on the way, could be read before.  With names that
  are too long the converse is false: a missing directory in
  front of such a name hides the fault.
-/
theorem IsRooted.readIfExists_of_later
    (hRooted : t.IsRooted)
    (hForward : path.IsForward)
    (hEnds : path.EndsInName)
    (hKeeps : t.KeepsDirectories u)
    (hFiles : ∀ place,
      place <+: path.place → place ≠ path.place →
        t.HasFile place → u.HasFile place)
    (hSame : t.at? path.place = u.at? path.place)
    {previous : Option String}
    (hRead : u.readIfExists path = .ok previous) :
    t.readIfExists path = .ok previous := by
  by_cases hLegal : IsLegal path
  · have hWalk : t.locate path = .error .notFound ∨
        u.locate path = t.locate path := by
      rw [locate_of_endsInName hEnds hLegal,
        locate_of_endsInName hEnds hLegal]
      apply walk_eq_of_later (areNames_of_isForward hForward)
        hKeeps
      intro front hFront hNe
      apply hFiles
      · exact (List.prefix_append_right_inj _).mpr hFront
      · exact fun hEq => hNe (List.append_cancel_left hEq)
    rcases hWalk with hMissing | hLocate
    · have hNone := hRooted.at?_of_notFound hForward hEnds
        hLegal hMissing
      rw [eq_none_of_readIfExists hForward (hSame ▸ hNone)
        hRead]
      unfold readIfExists read
      rw [hMissing]
    · rw [← hRead]
      cases hFound : t.locate path with
      | ok place =>
          rw [hFound] at hLocate
          have hPlace := eq_place_of_locate hForward hFound
          rw [readIfExists_of_locate hFound,
            readIfExists_of_locate hLocate, hPlace, hSame]
      | error fault =>
          rw [hFound] at hLocate
          unfold readIfExists read
          rw [hFound, hLocate]
  · rcases exists_fault_of_not_isLegal hLegal with
      ⟨fault, _, hFails⟩
    rw [← hRead]
    unfold readIfExists read locate
    rw [hFails t, hFails u]

------------------------------------------------------------
-- Writing
------------------------------------------------------------

theorem walk_append_of_ok
    {first second : List String}
    {middle : Location}
    (hFirst : t.walk place first = .ok middle) :
    t.walk place (first ++ second) = t.walk middle second := by
  induction first generalizing place with
  | nil =>
      cases hFirst
      rfl
  | cons piece rest ih =>
      rw [walk_cons_eq_ok_iff] at hFirst
      rw [List.cons_append, walk, hFirst.1]
      dsimp only
      rw [if_neg (Nat.not_lt.mpr hFirst.2.1)]
      exact ih hFirst.2.2

/- A path whose last part stands in a directory. -/
theorem locate_of_walk_front
    (hForward : path.IsForward)
    (hEnds : path.EndsInName)
    (hLegal : IsLegal path)
    (hNames : path.names = front ++ [last])
    (hWalk :
      t.walk (Location.start path) front =
        .ok (Location.start path ++ front))
    (hHere :
      t.at? (Location.start path ++ front) =
        some .directory) :
    t.locate path =
      if maxNameSize < last.utf8ByteSize then
        .error .nameTooLong
      else
        .ok path.place := by
  have hSteps := areNames_of_isForward hForward
  have hLast := hSteps last (by rw [hNames]; simp)
  rw [locate_of_endsInName hEnds hLegal, hNames,
    walk_append_of_ok hWalk, walk, hHere]
  dsimp only
  unfold FilePath.place
  rw [hNames, Location.advance_of_name hLast.1 hLast.2,
    List.append_assoc]
  rfl

/- A directory is where the walk along its names leads. -/
theorem walk_names_of_isDirectory
    (hForward : path.IsForward)
    (hTrimmed : path.IsTrimmed)
    (hDirectory : t.IsDirectory path) :
    t.walk (Location.start path) path.names = .ok path.place ∧
      t.at? path.place = some .directory := by
  rcases isDirectory_iff.mp hDirectory with
    ⟨place, hLocate, hNode⟩
  have hPlace := eq_place_of_locate hForward hLocate
  subst hPlace
  refine ⟨?_, hNode⟩
  rcases hTrimmed with hNil | hEnds
  · unfold FilePath.place
    rw [hNil, List.append_nil]
    rfl
  · have hLegal : IsLegal path := by
      unfold locate at hLocate
      rw [locatePieces_eq_ok_iff] at hLocate
      exact hLocate.1
    rw [← locate_of_endsInName hEnds hLegal]
    exact hLocate

end FileTree

end Palimpsest
