import Palimpsest.Proofs.Files.Extension
import Palimpsest.Proofs.Output.Action
import Palimpsest.Proofs.Output.RoundTrip

/-
  Where the units of a pass are stored.

  The segments of a name that was read from a text hold no
  dots and no slashes.  So every directory of a unit has a
  name without dots, and every file has one with a dot, and no
  path of a unit steps up or starts at the root.

  Main declarations:
    * `QualifiedName.IsParsed`
    * `FilePath.IsUnitFile`
    * `QualifiedName.IsBare.exists_pieces_filePath`
    * `Emitter.IsRegular`
    * `Emitter.isUnitFile_filePath`
    * `Emitter.isUnitFile_packageFilePath`
-/

namespace Palimpsest

------------------------------------------------------------
-- Names Read From Texts
------------------------------------------------------------

namespace FilePath

/- A piece of a path that is a name without dots. -/
def IsBare (piece : String) : Prop :=
  piece ≠ "" ∧ '.' ∉ piece.toList ∧ separator ∉ piece.toList

/- A piece of a path that is a name with a dot. -/
def IsDotted (piece : String) : Prop :=
  '.' ∈ piece.toList ∧ ¬ IsIdle piece ∧ piece ≠ ".." ∧
    separator ∉ piece.toList

variable {piece : String}

theorem IsBare.not_isIdle (hBare : IsBare piece) :
    ¬ IsIdle piece := by
  rintro (hEmpty | hDot)
  · exact hBare.1 hEmpty
  · exact hBare.2.1 (by rw [hDot]; decide)

theorem IsBare.ne_dots (hBare : IsBare piece) :
    piece ≠ ".." := by
  intro hDots
  exact hBare.2.1 (by rw [hDots]; decide)

theorem IsBare.not_isDotted (hBare : IsBare piece) :
    ¬ IsDotted piece :=
  fun hDotted => hBare.2.1 hDotted.1

/- A bare name with an extension has a dot. -/
theorem IsBare.isDotted_append
    (hBare : IsBare piece)
    {extension : String}
    (hExtension : extension ≠ "")
    (hPiece : separator ∉ extension.toList) :
    IsDotted (piece ++ "." ++ extension) := by
  have hChars :
      (piece ++ "." ++ extension).toList =
        piece.toList ++ '.' :: extension.toList := by
    simp
  have hSome : piece.toList ≠ [] := by
    simpa using hBare.1
  have hMore : extension.toList ≠ [] := by
    simpa using hExtension
  have hLong :
      3 ≤ (piece ++ "." ++ extension).toList.length := by
    have hFirst := List.length_pos_iff.mpr hSome
    have hLast := List.length_pos_iff.mpr hMore
    rw [hChars, List.length_append, List.length_cons]
    omega
  refine ⟨?_, ?_, ?_, ?_⟩
  · rw [hChars]
    simp
  · rintro (hEq | hEq) <;>
    · rw [hEq] at hLong
      exact absurd hLong (by decide)
  · intro hEq
    rw [hEq] at hLong
    exact absurd hLong (by decide)
  · have hDot : separator ≠ '.' := by
      decide
    rw [hChars, List.mem_append, List.mem_cons]
    rintro (hMem | hEq | hMem)
    · exact hBare.2.2 hMem
    · exact hDot hEq
    · exact hPiece hMem

end FilePath

namespace QualifiedName

/- A name that was read from a dotted text. -/
def IsParsed (name : QualifiedName) : Prop :=
  ∃ text, parse text = .ok name

theorem checkSegment_eq_ok_iff {segment other : String} :
    checkSegment segment = .ok other ↔
      segment ≠ "" ∧ ¬ HasForbidden segment.toList ∧
        other = segment := by
  unfold checkSegment
  by_cases hEmpty : segment = ""
  · simp [hEmpty]
  · by_cases hForbidden : HasForbidden segment.toList
    · simp [hEmpty, hForbidden]
    · simp [hEmpty, hForbidden, eq_comm]

theorem checkSegments_eq_ok_iff
    {segments others : List String} :
    checkSegments segments = .ok others ↔
      others = segments ∧
        ∀ segment ∈ segments,
          segment ≠ "" ∧ ¬ HasForbidden segment.toList := by
  induction segments generalizing others with
  | nil =>
      simp [checkSegments, eq_comm]
  | cons segment rest ih =>
      rw [checkSegments, List.forall_mem_cons]
      cases hFirst : checkSegment segment with
      | error e =>
          have hRefused :
              ¬ (segment ≠ "" ∧
                ¬ HasForbidden segment.toList) := by
            rintro ⟨hNonempty, hAllowed⟩
            have hOk := checkSegment_eq_ok_iff.mpr
              ⟨hNonempty, hAllowed, rfl⟩
            rw [hFirst] at hOk
            cases hOk
          exact iff_of_false nofun
            (fun hAll => hRefused hAll.2.1)
      | ok s =>
          rcases checkSegment_eq_ok_iff.mp hFirst with
            ⟨hNonempty, hAllowed, rfl⟩
          cases hRest : checkSegments rest with
          | error e =>
              refine iff_of_false nofun (fun hAll => ?_)
              have hOk := ih.mpr ⟨rfl, hAll.2.2⟩
              rw [hRest] at hOk
              cases hOk
          | ok ss =>
              rcases ih.mp hRest with ⟨rfl, hOthers⟩
              have hAll := And.intro
                (And.intro hNonempty hAllowed) hOthers
              dsimp only
              rw [and_iff_left hAll, Except.ok.injEq, eq_comm]

/- A name that has segments, all of them bare names. -/
def IsBare (name : QualifiedName) : Prop :=
  name.segments ≠ [] ∧
    ∀ segment ∈ name.segments, FilePath.IsBare segment

theorem IsBare.child
    {name : QualifiedName}
    (hName : name.IsBare)
    {stem : String}
    (hStem : FilePath.IsBare stem) :
    (name.child stem).IsBare := by
  refine ⟨by simp [QualifiedName.child], ?_⟩
  unfold QualifiedName.child
  rw [List.forall_mem_append, List.forall_mem_singleton]
  exact ⟨hName.2, hStem⟩

/- The segments of a name that was read are bare names. -/
theorem IsParsed.isBare
    {name : QualifiedName}
    (hName : name.IsParsed) :
    name.IsBare := by
  rcases hName with ⟨text, hText⟩
  unfold parse at hText
  split at hText
  · cases hText
  · split at hText
    · cases hText
    · rename_i segments hCheck
      cases hText
      rcases checkSegments_eq_ok_iff.mp hCheck with
        ⟨rfl, hAll⟩
      refine ⟨Text.splitAt_ne_nil text, ?_⟩
      intro segment hSegment
      rcases hAll segment hSegment with
        ⟨hNonempty, hAllowed⟩
      exact ⟨hNonempty, Text.not_mem_of_mem_splitAt hSegment,
        fun hSlash => hAllowed ⟨_, hSlash, .inl rfl⟩⟩

end QualifiedName

------------------------------------------------------------
-- Paths Of Units
------------------------------------------------------------

namespace FilePath

variable {path : FilePath} {front : List String}
variable {piece last extension : String}

/- Joining to a path of names only appends the pieces. -/
theorem pieces_join_of_names
    {base : FilePath}
    (hBase : ∀ piece ∈ base.pieces, ¬ IsIdle piece)
    (hPath : ¬ path.IsAbsolute) :
    (base.join path).pieces = base.pieces ++ path.pieces := by
  rcases exists_pieces_join hPath base with
    ⟨others, hPieces, hNames, hSubset⟩
  have hOthers : namesOf others = others :=
    namesOf_eq_self
      (fun piece hMem => hBase piece (hSubset piece hMem))
  unfold names at hNames
  rw [hOthers, namesOf_eq_self hBase] at hNames
  rw [hPieces, hNames]

/- Segments are the pieces of the path built from them. -/
theorem pieces_ofSegments
    (hFront : ∀ piece ∈ front, IsBare piece)
    (hLast : separator ∉ last.toList) :
    (ofSegments (front ++ [last])).pieces =
      front ++ [last] := by
  induction front using List.reverseRecOn generalizing last with
  | nil =>
      have hJoin : empty.join ⟨last⟩ = ⟨last⟩ := by
        unfold join
        rw [if_neg (not_isAbsolute_mk hLast),
          if_pos (by decide)]
        unfold empty
        rw [String.empty_append]
      have hSingle :
          ofSegments ([] ++ [last]) = empty.join ⟨last⟩ :=
        rfl
      rw [hSingle, hJoin]
      exact pieces_mk hLast
  | append_singleton front second ih =>
      rw [List.forall_mem_append, List.forall_mem_singleton]
        at hFront
      have hBefore := ih hFront.1 hFront.2.2.2
      have hAppend :
          ofSegments (front ++ [second] ++ [last]) =
            (ofSegments (front ++ [second])).join ⟨last⟩ := by
        unfold ofSegments
        rw [List.foldl_append]
        rfl
      rw [hAppend, pieces_join_of_names _
        (not_isAbsolute_mk hLast), hBefore, pieces_mk hLast]
      rw [hBefore]
      intro piece hPiece
      rcases List.mem_append.mp hPiece with hOld | hNew
      · exact (hFront.1 piece hOld).not_isIdle
      · rw [List.mem_singleton.mp hNew]
        exact hFront.2.not_isIdle

/- The extension is put after the last name of a path. -/
theorem pieces_withExtension
    {idle : List String}
    (hPieces : path.pieces = front ++ [last] ++ idle)
    (hIdle : idle = [] ∨ idle = [""])
    (hFront : ∀ piece ∈ front, IsBare piece)
    (hLast : IsBare last)
    (hExtension : extension ≠ "")
    (hPiece : separator ∉ extension.toList) :
    (path.withExtension extension).pieces =
      front ++ [last ++ "." ++ extension] := by
  have hKept :
      dropIdleEnd path.pieces = front ++ [last] := by
    rw [dropIdleEnd_eq_rdropWhile, hPieces]
    have hName := hLast.not_isIdle
    rcases hIdle with rfl | rfl
    · rw [List.append_nil, List.rdropWhile_concat]
      simp [hName]
    · rw [List.rdropWhile_concat, List.rdropWhile_concat]
      simp [hName, isIdle_empty]
  have hCut : (cutExtension last).1 = last := by
    rw [cutExtension_eq_self_iff]
    exact fun hMem => hLast.2.1 (List.mem_of_mem_tail hMem)
  rw [withExtension_of_name hExtension hKept hLast.ne_dots,
    hCut]
  apply pieces_mk_joinWith
  · intro piece hMem
    rcases List.mem_append.mp hMem with hOld | hNew
    · exact (hFront piece hOld).2.2
    · rw [List.mem_singleton.mp hNew]
      exact (hLast.isDotted_append hExtension hPiece).2.2.2
  · simp

/- Directories with bare names, and a file name with a dot. -/
def IsUnitFile (path : FilePath) : Prop :=
  ∃ directories file,
    path.pieces = directories ++ [file] ∧
      (∀ piece ∈ directories, IsBare piece) ∧ IsDotted file

/- Directories with bare names only. -/
def IsUnitDirectory (path : FilePath) : Prop :=
  ∀ piece ∈ path.pieces, IsBare piece

theorem names_eq_pieces
    (hPath : ∀ piece ∈ path.pieces, ¬ IsIdle piece) :
    path.names = path.pieces :=
  namesOf_eq_self hPath

theorem not_isAbsolute_of_names
    (hPath : ∀ piece ∈ path.pieces, ¬ IsIdle piece) :
    ¬ path.IsAbsolute := by
  rw [isAbsolute_iff]
  rintro ⟨rest, _, hPieces⟩
  exact hPath "" (by rw [hPieces]; exact List.mem_cons_self)
    isIdle_empty

theorem IsUnitFile.not_isIdle
    (hPath : path.IsUnitFile) :
    ∀ piece ∈ path.pieces, ¬ IsIdle piece := by
  rcases hPath with ⟨directories, file, hPieces, hBare, hFile⟩
  rw [hPieces]
  intro piece hPiece
  rcases List.mem_append.mp hPiece with hOld | hNew
  · exact (hBare piece hOld).not_isIdle
  · rw [List.mem_singleton.mp hNew]
    exact hFile.2.1

theorem IsUnitFile.isForward (hPath : path.IsUnitFile) :
    path.IsForward := by
  rcases hPath with ⟨directories, file, hPieces, hBare, hFile⟩
  unfold IsForward
  rw [hPieces, List.mem_append, List.mem_singleton]
  rintro (hOld | hNew)
  · exact (hBare _ hOld).ne_dots rfl
  · exact hFile.2.2.1 hNew.symm

theorem IsUnitDirectory.not_isIdle
    (hPath : path.IsUnitDirectory) :
    ∀ piece ∈ path.pieces, ¬ IsIdle piece :=
  fun piece hPiece => (hPath piece hPiece).not_isIdle

theorem IsUnitDirectory.isForward
    (hPath : path.IsUnitDirectory) :
    path.IsForward :=
  fun hMem => (hPath _ hMem).ne_dots rfl

/- The path of a unit file below a root. -/
theorem IsUnitFile.join
    {root : FilePath}
    (hRoot : root.IsForward)
    (hPath : path.IsUnitFile) :
    (root.join path).IsForward ∧
      ∃ directories file,
        (∀ piece ∈ directories, IsBare piece) ∧
          IsDotted file ∧
            path.pieces = directories ++ [file] ∧
              (root.join path).names =
                root.names ++ directories ++ [file] ∧
              (root.join path).place =
                root.place ++ directories ++ [file] := by
  have hNames := names_eq_pieces hPath.not_isIdle
  have hRelative := not_isAbsolute_of_names hPath.not_isIdle
  have hForward :=
    hRoot.join hPath.isForward hRelative
  rcases hPath with ⟨directories, file, hPieces, hBare, hFile⟩
  rw [hPieces] at hNames
  refine ⟨hForward, directories, file, hBare, hFile, hPieces,
    ?_, ?_⟩
  · rw [names_join hRelative, hNames, List.append_assoc]
  · rw [place_join hRelative, hNames, List.append_assoc]

/- The directory of a unit file below a root. -/
theorem IsUnitFile.parent
    {root parent : FilePath}
    (hRoot : root.IsForward)
    (hPath : path.IsUnitFile)
    (hParent : (root.join path).parent? = some parent) :
    parent.IsForward ∧
      ∃ directories,
        (∀ piece ∈ directories, IsBare piece) ∧
          parent.place = root.place ++ directories := by
  have hIs := isParent_of_parent? hParent
  have hRelative := not_isAbsolute_of_names hPath.not_isIdle
  rcases hPath.join hRoot with
    ⟨hForward, directories, file, hBare, _, _, hNames, _⟩
  refine ⟨hIs.forward hForward, directories, hBare, ?_⟩
  unfold place
  rw [hIs.start, hIs.names, hNames, List.dropLast_concat,
    start_join hRelative, List.append_assoc]

/- The path of a unit directory below a root. -/
theorem IsUnitDirectory.join
    {root : FilePath}
    (hRoot : root.IsForward)
    (hPath : path.IsUnitDirectory) :
    (root.join path).IsForward ∧
      (root.join path).place = root.place ++ path.pieces := by
  have hRelative := not_isAbsolute_of_names hPath.not_isIdle
  refine ⟨hRoot.join hPath.isForward hRelative, ?_⟩
  rw [place_join hRelative, names_eq_pieces hPath.not_isIdle]

end FilePath

namespace QualifiedName

variable {name : QualifiedName} {extension : String}

/- The directory of a name has its segments as pieces. -/
theorem IsBare.pieces_dirPath (hName : name.IsBare) :
    name.dirPath.pieces = name.segments := by
  rcases hName with ⟨hNonempty, hBare⟩
  rcases List.eq_nil_or_concat name.segments with
    hNil | ⟨front, last, hConcat⟩
  · exact absurd hNil hNonempty
  · rw [List.concat_eq_append] at hConcat
    rw [hConcat, List.forall_mem_append,
      List.forall_mem_singleton] at hBare
    unfold dirPath
    rw [hConcat]
    exact FilePath.pieces_ofSegments hBare.1 hBare.2.2.2

/- The last segment of a name takes the extension. -/
theorem IsBare.exists_pieces_filePath
    (hName : name.IsBare)
    (hExtension : extension ≠ "")
    (hSlash : FilePath.separator ∉ extension.toList) :
    ∃ front last,
      name.segments = front ++ [last] ∧
        (∀ piece ∈ front, FilePath.IsBare piece) ∧
          FilePath.IsBare last ∧
            (name.filePath extension).pieces =
              front ++ [last ++ "." ++ extension] := by
  have hPieces := hName.pieces_dirPath
  rcases hName with ⟨hNonempty, hBare⟩
  rcases List.eq_nil_or_concat name.segments with
    hNil | ⟨front, last, hConcat⟩
  · exact absurd hNil hNonempty
  · rw [List.concat_eq_append] at hConcat
    rw [hConcat, List.forall_mem_append,
      List.forall_mem_singleton] at hBare
    refine ⟨front, last, hConcat, hBare.1, hBare.2, ?_⟩
    unfold filePath
    rw [if_neg hExtension]
    apply FilePath.pieces_withExtension _ (.inl rfl) hBare.1
      hBare.2 hExtension hSlash
    rw [hPieces, hConcat, List.append_nil]

theorem IsBare.isUnitFile_filePath
    (hName : name.IsBare)
    (hExtension : extension ≠ "")
    (hSlash : FilePath.separator ∉ extension.toList) :
    (name.filePath extension).IsUnitFile := by
  rcases hName.exists_pieces_filePath hExtension hSlash with
    ⟨front, last, _, hFront, hLast, hPieces⟩
  exact ⟨front, _, hPieces, hFront,
    hLast.isDotted_append hExtension hSlash⟩

end QualifiedName

namespace Emitter

/- The directory below which units are written. -/
def outputRoot (e : Emitter) : FilePath :=
  e.strategy.root e.base

/-
  The roots are written without two dots, the extension is a
  part of a file name, and the stem of package files is at
  most a bare name.
-/
structure IsRegular (e : Emitter) : Prop where
  base : e.base.IsForward
  root : e.outputRoot.IsForward
  extension : e.extension ≠ ""
  extensionPiece : FilePath.separator ∉ e.extension.toList
  stem :
    FilePath.separator ∉ e.packageFileStem.toList ∧
      '.' ∉ e.packageFileStem.toList

variable {e : Emitter} {name : QualifiedName}

theorem isUnitDirectory_dirPath (hName : name.IsParsed) :
    name.dirPath.IsUnitDirectory := by
  unfold FilePath.IsUnitDirectory
  rw [hName.isBare.pieces_dirPath]
  exact hName.isBare.2

theorem isUnitFile_filePath
    (hRegular : e.IsRegular)
    (hName : name.IsParsed) :
    (e.filePath name).IsUnitFile :=
  hName.isBare.isUnitFile_filePath hRegular.extension
    hRegular.extensionPiece

/-
  Without a stem, the package file has the name of the
  module.
-/
theorem isUnitFile_packageFilePath
    (hRegular : e.IsRegular)
    (hName : name.IsParsed) :
    (e.packageFilePath name).IsUnitFile := by
  by_cases hStem : e.packageFileStem = ""
  · rcases hName.isBare with ⟨hNonempty, hBare⟩
    have hPieces :
        (name.child e.packageFileStem).dirPath.pieces =
          name.segments ++ [e.packageFileStem] := by
      unfold QualifiedName.dirPath QualifiedName.child
      exact FilePath.pieces_ofSegments hBare hRegular.stem.1
    unfold packageFilePath QualifiedName.filePath
    rw [if_neg hRegular.extension]
    rcases List.eq_nil_or_concat name.segments with
      hNil | ⟨front, last, hConcat⟩
    · exact absurd hNil hNonempty
    · rw [List.concat_eq_append] at hConcat
      rw [hConcat, List.forall_mem_append,
        List.forall_mem_singleton] at hBare
      refine ⟨front, last ++ "." ++ e.extension, ?_, hBare.1,
        hBare.2.isDotted_append hRegular.extension
          hRegular.extensionPiece⟩
      apply FilePath.pieces_withExtension _ (.inr rfl) hBare.1
        hBare.2 hRegular.extension hRegular.extensionPiece
      rw [hPieces, hConcat, hStem]
  · have hLast : FilePath.IsBare e.packageFileStem :=
      ⟨hStem, hRegular.stem.2, hRegular.stem.1⟩
    exact (hName.isBare.child hLast).isUnitFile_filePath
      hRegular.extension hRegular.extensionPiece

end Emitter

end Palimpsest
