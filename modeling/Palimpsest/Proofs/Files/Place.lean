import Mathlib.Data.List.DropRight
import Palimpsest.Proofs.Files.Walk
import Palimpsest.Proofs.Text.Parts

/-
  Where paths lead that never step up.

  A path without two dots leads to the place that its names
  spell out, whatever the file tree holds.  Joining a relative
  path appends its names, and the path above another one has
  the same names but the last.

  Main declarations:
    * `FilePath.IsForward`
    * `FilePath.place`
    * `FileTree.eq_place_of_locate`
    * `FilePath.exists_pieces_join`
    * `FilePath.isParent_of_parent?`
-/

namespace Palimpsest

------------------------------------------------------------
-- The Names Of A Path
------------------------------------------------------------

namespace FilePath

/- A path that is written without two dots as a piece. -/
def IsForward (path : FilePath) : Prop :=
  ".." ∉ path.pieces

instance (path : FilePath) : Decidable path.IsForward := by
  unfold IsForward
  infer_instance

/- The place that the steps of a path spell out. -/
def place (path : FilePath) : Location :=
  Location.start path ++ path.names

theorem namesOf_append (first second : List String) :
    namesOf (first ++ second) =
      namesOf first ++ namesOf second :=
  List.filter_append ..

theorem namesOf_eq_self
    {pieces : List String}
    (hPieces : ∀ piece ∈ pieces, ¬ IsIdle piece) :
    namesOf pieces = pieces := by
  unfold namesOf
  rw [List.filter_eq_self]
  simpa using hPieces

theorem namesOf_eq_nil_iff {pieces : List String} :
    namesOf pieces = [] ↔ ∀ piece ∈ pieces, IsIdle piece := by
  unfold namesOf
  simp

theorem namesOf_cons_of_idle
    {piece : String}
    (hPiece : IsIdle piece)
    (rest : List String) :
    namesOf (piece :: rest) = namesOf rest := by
  unfold namesOf
  simp [hPiece]

theorem namesOf_cons_of_not_idle
    {piece : String}
    (hPiece : ¬ IsIdle piece)
    (rest : List String) :
    namesOf (piece :: rest) = piece :: namesOf rest := by
  unfold namesOf
  simp [hPiece]

theorem isIdle_empty : IsIdle "" :=
  .inl rfl

theorem isIdle_dot : IsIdle "." :=
  .inr rfl

/- No piece of a path holds a slash. -/
theorem separator_not_mem_of_mem_pieces
    {path : FilePath}
    {piece : String}
    (hPiece : piece ∈ path.pieces) :
    separator ∉ piece.toList :=
  Text.not_mem_of_mem_splitAt hPiece

end FilePath

------------------------------------------------------------
-- Walking Along Names
------------------------------------------------------------

namespace Location

theorem advance_of_idle
    {piece : String}
    (hPiece : FilePath.IsIdle piece)
    (place : Location) :
    place.advance piece = place :=
  if_pos hPiece

theorem advance_of_name
    {piece : String}
    (hPiece : ¬ FilePath.IsIdle piece)
    (hUp : piece ≠ "..")
    (place : Location) :
    place.advance piece = place ++ [piece] := by
  unfold advance
  rw [if_neg hPiece, if_neg hUp]

end Location

namespace FileTree

variable {t : FileTree} {place other : Location}

/- A walk that never steps up goes down along the names. -/
theorem eq_append_namesOf_of_walk
    {pieces : List String}
    (hPieces : ".." ∉ pieces)
    (hWalk : t.walk place pieces = .ok other) :
    other = place ++ FilePath.namesOf pieces := by
  induction pieces generalizing place with
  | nil =>
      cases hWalk
      exact (List.append_nil _).symm
  | cons piece rest ih =>
      rw [List.mem_cons, not_or] at hPieces
      rw [walk_cons_eq_ok_iff] at hWalk
      have hOther := ih hPieces.2 hWalk.2.2
      by_cases hIdle : FilePath.IsIdle piece
      · rw [Location.advance_of_idle hIdle] at hOther
        rw [hOther, FilePath.namesOf_cons_of_idle hIdle]
      · rw [Location.advance_of_name hIdle
          (Ne.symm hPieces.1)] at hOther
        rw [hOther, FilePath.namesOf_cons_of_not_idle hIdle]
        simp

/- Trimming takes idle pieces off the end. -/
theorem namesOf_trimmedPieces (path : FilePath) :
    FilePath.namesOf (trimmedPieces path) = path.names := by
  rcases pieces_eq_trimmedPieces_append path with
    ⟨count, hPieces⟩
  have hIdle :
      FilePath.namesOf (List.replicate count "") = [] := by
    rw [FilePath.namesOf_eq_nil_iff]
    intro piece hPiece
    rw [List.eq_of_mem_replicate hPiece]
    exact FilePath.isIdle_empty
  unfold FilePath.names
  rw [hPieces, FilePath.namesOf_append, hIdle,
    List.append_nil]

theorem trimmedPieces_subset (path : FilePath) :
    trimmedPieces path ⊆ path.pieces := by
  rcases pieces_eq_trimmedPieces_append path with
    ⟨count, hPieces⟩
  rw [hPieces]
  exact List.subset_append_left _ _

/- A path that never steps up leads to its place. -/
theorem eq_place_of_locate
    {path : FilePath}
    (hForward : path.IsForward)
    (hLocate : t.locate path = .ok place) :
    place = path.place := by
  unfold locate at hLocate
  rw [locatePieces_eq_ok_iff] at hLocate
  exact eq_append_namesOf_of_walk hForward hLocate.2

theorem eq_place_of_locateTrimmed
    {path : FilePath}
    (hForward : path.IsForward)
    (hLocate : t.locateTrimmed path = .ok place) :
    place = path.place := by
  have hTrimmed : ".." ∉ trimmedPieces path :=
    fun hMem => hForward (trimmedPieces_subset path hMem)
  unfold locateTrimmed at hLocate
  rw [locatePieces_eq_ok_iff] at hLocate
  have hPlace := eq_append_namesOf_of_walk hTrimmed hLocate.2
  rw [namesOf_trimmedPieces] at hPlace
  exact hPlace

end FileTree

------------------------------------------------------------
-- Joining
------------------------------------------------------------

namespace FilePath

variable {base path : FilePath}

/- A path is cut at each of its separators. -/
theorem pieces_of_toList
    {chars : List Char}
    {rest : FilePath}
    (hText : path.text.toList =
      chars ++ separator :: rest.text.toList) :
    path.pieces =
      (FilePath.mk (String.ofList chars)).pieces ++
        rest.pieces := by
  unfold pieces
  rw [Text.splitAt_append_cons hText, String.ofList_toList]

/- What is joined to the empty path stands alone. -/
theorem join_of_eq_empty
    (hPath : ¬ path.IsAbsolute)
    (hBase : base.text = "") :
    base.join path = path := by
  unfold join
  rw [if_neg hPath, hBase, if_pos (by decide),
    String.empty_append]

/- A base that ends in a separator has an idle last piece. -/
theorem pieces_join_of_separator
    {chars : List Char}
    (hPath : ¬ path.IsAbsolute)
    (hBase : base.text.toList = chars ++ [separator]) :
    (base.join path).pieces =
        (FilePath.mk (String.ofList chars)).pieces ++
          path.pieces ∧
      base.pieces =
        (FilePath.mk (String.ofList chars)).pieces ++ [""] := by
  have hText :
      (base.text ++ path.text).toList =
        chars ++ separator :: path.text.toList := by
    rw [String.toList_append, hBase]
    simp
  have hEnd :
      base.text.toList =
        chars ++ separator :: (FilePath.mk "").text.toList :=
    hBase
  have hNothing : (FilePath.mk "").pieces = [""] := by
    decide
  unfold join
  rw [if_neg hPath, if_pos (by simp [hBase])]
  refine ⟨pieces_of_toList hText, ?_⟩
  rw [pieces_of_toList hEnd, hNothing]

/- A separator is put behind a base that does not end in one. -/
theorem pieces_join_of_ne_separator
    {chars : List Char}
    {last : Char}
    (hPath : ¬ path.IsAbsolute)
    (hBase : base.text.toList = chars ++ [last])
    (hLast : last ≠ separator) :
    (base.join path).pieces = base.pieces ++ path.pieces := by
  have hText :
      (base.text ++ "/" ++ path.text).toList =
        base.text.toList ++ separator :: path.text.toList := by
    have hSlash : "/".toList = [separator] := by
      decide
    rw [String.toList_append, String.toList_append, hSlash]
    simp
  unfold join
  rw [if_neg hPath, if_neg (by simpa [hBase] using hLast),
    pieces_of_toList hText, String.ofList_toList]

/-
  The pieces of a joined path end in those of the relative
  path; the pieces before have the names of the base.
-/
theorem exists_pieces_join
    (hPath : ¬ path.IsAbsolute)
    (base : FilePath) :
    ∃ front,
      (base.join path).pieces = front ++ path.pieces ∧
        namesOf front = base.names ∧
          (∀ piece ∈ front, piece ∈ base.pieces) := by
  rcases List.eq_nil_or_concat base.text.toList with
    hNil | ⟨chars, last, hLast⟩
  · have hEmpty : base.text = "" := String.toList_inj.mp hNil
    refine ⟨[], ?_, ?_, by simp⟩
    · rw [join_of_eq_empty hPath hEmpty]
      rfl
    · unfold names pieces
      rw [hEmpty]
      decide
  rw [List.concat_eq_append] at hLast
  by_cases hEnd : last = separator
  · subst hEnd
    rcases pieces_join_of_separator hPath hLast with
      ⟨hJoin, hBase⟩
    refine ⟨_, hJoin, ?_, ?_⟩
    · unfold names
      rw [hBase, namesOf_append,
        namesOf_cons_of_idle isIdle_empty]
      exact (List.append_nil _).symm
    · intro piece hPiece
      rw [hBase]
      exact List.mem_append_left _ hPiece
  · exact ⟨base.pieces,
      pieces_join_of_ne_separator hPath hLast hEnd, rfl,
      fun _ hPiece => hPiece⟩

theorem names_join
    (hPath : ¬ path.IsAbsolute)
    (base : FilePath) :
    (base.join path).names = base.names ++ path.names := by
  rcases exists_pieces_join hPath base with
    ⟨front, hPieces, hFront, _⟩
  unfold names at hFront ⊢
  rw [hPieces, namesOf_append, hFront]

theorem IsForward.join
    (hBase : base.IsForward)
    (hForward : path.IsForward)
    (hPath : ¬ path.IsAbsolute) :
    (base.join path).IsForward := by
  rcases exists_pieces_join hPath base with
    ⟨front, hPieces, _, hSubset⟩
  unfold IsForward
  rw [hPieces, List.mem_append, not_or]
  exact ⟨fun hMem => hBase (hSubset _ hMem), hForward⟩

/- A joined path starts where the base starts. -/
theorem start_join
    (hPath : ¬ path.IsAbsolute)
    (base : FilePath) :
    Location.start (base.join path) = Location.start base := by
  have hSame :
      (base.join path).IsAbsolute ↔ base.IsAbsolute := by
    unfold FilePath.join
    rw [if_neg hPath]
    unfold IsAbsolute at hPath ⊢
    cases hBase : base.text.toList with
    | nil =>
        have hEmpty : base.text = "" :=
          String.toList_inj.mp hBase
        simpa [hEmpty] using hPath
    | cons c chars =>
        split <;>
          simp [String.toList_append, hBase]
  unfold Location.start
  simp only [hSame]

theorem place_join
    (hPath : ¬ path.IsAbsolute)
    (base : FilePath) :
    (base.join path).place = base.place ++ path.names := by
  unfold place
  rw [start_join hPath, names_join hPath, List.append_assoc]

------------------------------------------------------------
-- Cutting A Path
------------------------------------------------------------

theorem dropIdleEnd_eq_rdropWhile (pieces : List String) :
    dropIdleEnd pieces =
      pieces.rdropWhile (fun p => decide (IsIdle p)) :=
  rfl

theorem dropIdleEnd_front (pieces : List String) :
    dropIdleEnd pieces <+: pieces :=
  List.rdropWhile_prefix ..

/- Idle pieces at the end are no names. -/
theorem namesOf_dropIdleEnd (pieces : List String) :
    namesOf (dropIdleEnd pieces) = namesOf pieces := by
  induction pieces using List.reverseRecOn with
  | nil =>
      rfl
  | append_singleton front last ih =>
      rw [dropIdleEnd_eq_rdropWhile] at ih ⊢
      rw [List.rdropWhile_concat]
      by_cases hLast : IsIdle last
      · rw [if_pos (by simpa using hLast), ih,
          namesOf_append, namesOf_cons_of_idle hLast]
        exact (List.append_nil _).symm
      · rw [if_neg (by simpa using hLast)]

/- What is left ends in a name. -/
theorem dropIdleEnd_eq_concat
    {pieces front : List String}
    {last : String}
    (hPieces : dropIdleEnd pieces = front ++ [last]) :
    ¬ IsIdle last := by
  have hSome : dropIdleEnd pieces ≠ [] := by
    simp [hPieces]
  have hLast := List.rdropWhile_last_not _ _ hSome
  simpa [← dropIdleEnd_eq_rdropWhile, hPieces] using hLast

/- A path is absolute when an empty piece comes first. -/
theorem isAbsolute_iff :
    path.IsAbsolute ↔
      ∃ rest, rest ≠ [] ∧ path.pieces = "" :: rest := by
  unfold IsAbsolute
  constructor
  · intro hHead
    rcases List.head?_eq_some_iff.mp hHead with ⟨chars, hText⟩
    have hNothing :
        Text.splitAt separator (String.ofList []) = [""] := by
      decide
    refine ⟨Text.splitAt separator (String.ofList chars),
      Text.splitAt_ne_nil _, ?_⟩
    have hCut :
        path.text.toList = [] ++ separator :: chars :=
      hText
    unfold pieces
    rw [Text.splitAt_append_cons hCut, hNothing,
      List.singleton_append]
  · rintro ⟨rest, hRest, hPieces⟩
    have hText := Text.joinWith_splitAt
      (show "/".toList = [separator] by decide) path.text
    have hJoin :
        (Text.joinWith "/" path.pieces).toList =
          path.text.toList :=
      congrArg String.toList hText
    rw [hPieces, Text.toList_joinWith_cons "/" "" hRest]
      at hJoin
    rw [← hJoin]
    rfl

/- A path is no name at all, or starts in one of three ways. -/
theorem split_cases (path : FilePath) :
    (∃ rest,
        rest ≠ [] ∧ path.pieces = "" :: rest ∧
          path.split = ⟨"/", rest⟩) ∨
      (path.pieces = [""] ∧ path.split = ⟨"", []⟩) ∨
      (path.pieces = ["."] ∧ path.split = ⟨".", []⟩) ∨
      (∃ rest,
        rest ≠ [] ∧ path.pieces = "." :: rest ∧
          path.split = ⟨".", "" :: rest⟩) ∨
      (∃ first rest,
        ¬ IsIdle first ∧ path.pieces = first :: rest ∧
          path.split = ⟨"", first :: rest⟩) := by
  unfold split
  cases hPieces : path.pieces with
  | nil =>
      exact absurd hPieces (Text.splitAt_ne_nil path.text)
  | cons first rest =>
      by_cases hEmpty : first = ""
      · subst hEmpty
        by_cases hRest : rest = []
        · have hRelative : ¬ path.IsAbsolute := by
            rw [isAbsolute_iff]
            rintro ⟨other, hOther, hSame⟩
            rw [hPieces, hRest] at hSame
            exact hOther (List.cons.inj hSame).2.symm
          right; left
          rw [hRest]
          exact ⟨rfl, if_neg hRelative⟩
        · left
          exact ⟨rest, hRest, rfl, if_pos
            (isAbsolute_iff.mpr ⟨rest, hRest, hPieces⟩)⟩
      · by_cases hDot : first = "."
        · subst hDot
          by_cases hRest : rest = []
          · subst hRest
            exact .inr (.inr (.inl ⟨rfl, rfl⟩))
          · refine .inr (.inr (.inr (.inl
              ⟨rest, hRest, rfl, ?_⟩)))
            simp only [hRest, if_false]
        · refine .inr (.inr (.inr (.inr
            ⟨first, rest, ?_, rfl, ?_⟩)))
          · exact not_or.mpr ⟨hEmpty, hDot⟩
          · split
            · rename_i heq
              exact absurd (List.cons.inj heq).1 hEmpty
            · rename_i heq
              exact absurd (List.cons.inj heq).1 hDot
            · rfl

/- The pieces that are cut out are the pieces of the path. -/
theorem pieces_mk_joinWith
    {parts : List String}
    (hParts : ∀ part ∈ parts, separator ∉ part.toList)
    (hNonempty : parts ≠ []) :
    pieces ⟨Text.joinWith "/" parts⟩ = parts :=
  Text.splitAt_joinWith (by decide) hParts hNonempty

theorem text_eq_joinWith (path : FilePath) :
    Text.joinWith "/" path.pieces = path.text :=
  Text.joinWith_splitAt (by decide) path.text

/- A text without slashes is a path of one piece. -/
theorem pieces_mk
    {piece : String}
    (hPiece : separator ∉ piece.toList) :
    pieces ⟨piece⟩ = [piece] :=
  Text.splitAt_eq_singleton hPiece

theorem not_isAbsolute_mk
    {piece : String}
    (hPiece : separator ∉ piece.toList) :
    ¬ IsAbsolute ⟨piece⟩ := by
  rw [isAbsolute_iff, pieces_mk hPiece]
  rintro ⟨rest, hRest, hEq⟩
  exact hRest (List.cons.inj hEq).2.symm

/-
  The pieces of the front of a path: they have the same names
  as the pieces that were kept, they end in the same name, and
  an empty piece comes first when the path is absolute.
-/
structure IsCut
    (path : FilePath)
    (front parts : List String) : Prop where
  pieces :
    (Split.toPath ⟨path.split.start, front⟩).pieces = parts
  names : namesOf parts = namesOf front
  last : ∀ last ∈ front.getLast?, parts.getLast? = some last
  absolute :
    (∃ rest, rest ≠ [] ∧ parts = "" :: rest) ↔
      path.IsAbsolute

section Cut

variable {front parts rest : List String} {first : String}

theorem pieces_toPath
    (hText :
      path.split.start ++ Text.joinWith "/" front =
        Text.joinWith "/" parts)
    (hParts : ∀ part ∈ parts, separator ∉ part.toList)
    (hNonempty : parts ≠ []) :
    (Split.toPath ⟨path.split.start, front⟩).pieces =
      parts := by
  unfold Split.toPath
  rw [hText]
  exact pieces_mk_joinWith hParts hNonempty

theorem separator_not_mem_of_front
    (hPieces : path.pieces = first :: rest)
    (hFront : front <+: rest) :
    ∀ part ∈ first :: front, separator ∉ part.toList := by
  intro part hPart
  apply separator_not_mem_of_mem_pieces
  rw [hPieces]
  exact (List.cons_prefix_cons.mpr ⟨rfl, hFront⟩).subset hPart

/- After the root, nothing is left or the front is. -/
theorem exists_isCut_of_absolute
    (hRest : rest ≠ [])
    (hPieces : path.pieces = "" :: rest)
    (hSplit : path.split = ⟨"/", rest⟩)
    (hFront : front <+: rest) :
    ∃ parts, path.IsCut front parts := by
  have hAbsolute : path.IsAbsolute :=
    isAbsolute_iff.mpr ⟨rest, hRest, hPieces⟩
  by_cases hNil : front = []
  · subst hNil
    refine ⟨["", ""],
      pieces_toPath ?_ (by decide) (by simp), by decide,
      by simp, iff_of_true ⟨[""], by simp, rfl⟩ hAbsolute⟩
    rw [hSplit]
    dsimp only
    decide
  · refine ⟨"" :: front, pieces_toPath ?_
      (separator_not_mem_of_front hPieces hFront) (by simp),
      namesOf_cons_of_idle isIdle_empty front, ?_,
      iff_of_true ⟨front, hNil, rfl⟩ hAbsolute⟩
    · apply String.toList_inj.mp
      rw [hSplit, Text.toList_joinWith_cons "/" "" hNil,
        String.toList_append]
      rfl
    · intro last hIn
      rw [List.getLast?_cons, hIn]
      rfl

/- A path of one idle piece has nothing to cut. -/
theorem isCut_single
    (hFirst : IsIdle first)
    (hPieces : path.pieces = [first])
    (hStart : path.split.start = first) :
    path.IsCut [] [first] := by
  refine ⟨pieces_toPath ?_ ?_ (by simp), ?_, by simp, ?_⟩
  · rw [hStart]
    simp [Text.joinWith]
  · rw [← hPieces]
    exact fun part hPart =>
      separator_not_mem_of_mem_pieces hPart
  · exact namesOf_cons_of_idle hFirst []
  · rw [isAbsolute_iff, hPieces]

/- After a dot, only the dot is left or the front is. -/
theorem exists_isCut_of_dot
    (hPieces : path.pieces = "." :: rest)
    (hSplit : path.split = ⟨".", "" :: rest⟩)
    (hFront : front <+: "" :: rest)
    (hLast : ∀ last ∈ front.getLast?, ¬ IsIdle last) :
    ∃ parts, path.IsCut front parts := by
  have hRelative : ¬ path.IsAbsolute := by
    rw [isAbsolute_iff, hPieces]
    rintro ⟨_, _, hSame⟩
    exact absurd (List.cons.inj hSame).1 (by decide)
  have hDot (more : List String) :
      ¬ ∃ rest, rest ≠ [] ∧ "." :: more = "" :: rest := by
    rintro ⟨_, _, hSame⟩
    exact absurd (List.cons.inj hSame).1 (by decide)
  rcases List.prefix_cons_iff.mp hFront with
    rfl | ⟨more, rfl, hPrefix⟩
  · refine ⟨["."], pieces_toPath ?_ (by decide) (by simp),
      by decide, by simp, iff_of_false (hDot []) hRelative⟩
    rw [hSplit]
    dsimp only
    decide
  · have hNil : more ≠ [] := by
      rintro rfl
      exact hLast "" rfl isIdle_empty
    refine ⟨"." :: more, pieces_toPath ?_
      (separator_not_mem_of_front hPieces hPrefix) (by simp),
      ?_, ?_, iff_of_false (hDot more) hRelative⟩
    · apply String.toList_inj.mp
      rw [hSplit, Text.toList_joinWith_cons "/" "." hNil,
        String.toList_append,
        Text.toList_joinWith_cons "/" "" hNil]
      simp
    · rw [namesOf_cons_of_idle isIdle_dot,
        namesOf_cons_of_idle isIdle_empty]
    · intro last hIn
      rw [List.getLast?_cons_of_ne_nil hNil] at hIn ⊢
      exact hIn

/- In front of all names, nothing is left. -/
theorem exists_isCut_of_name
    (hFirst : ¬ IsIdle first)
    (hPieces : path.pieces = first :: rest)
    (hSplit : path.split = ⟨"", first :: rest⟩)
    (hFront : front <+: first :: rest) :
    ∃ parts, path.IsCut front parts := by
  have hRelative : ¬ path.IsAbsolute := by
    rw [isAbsolute_iff, hPieces]
    rintro ⟨_, _, hSame⟩
    exact hFirst (.inl (List.cons.inj hSame).1)
  rcases List.prefix_cons_iff.mp hFront with
    rfl | ⟨more, rfl, hPrefix⟩
  · refine ⟨[""], pieces_toPath ?_ (by decide) (by simp),
      by decide, by simp, iff_of_false ?_ hRelative⟩
    · rw [hSplit]
      dsimp only
      decide
    · rintro ⟨_, hNe, hSame⟩
      exact hNe (List.cons.inj hSame).2.symm
  · refine ⟨first :: more, pieces_toPath ?_
      (separator_not_mem_of_front hPieces hPrefix) (by simp),
      rfl, fun _ hIn => hIn, iff_of_false ?_ hRelative⟩
    · rw [hSplit]
      exact String.empty_append
    · rintro ⟨_, _, hSame⟩
      exact hFirst (.inl (List.cons.inj hSame).1)

/- Every front of a path that ends in a name can be cut. -/
theorem exists_isCut
    (hFront : front <+: path.split.pieces)
    (hLast : ∀ last ∈ front.getLast?, ¬ IsIdle last) :
    ∃ parts, path.IsCut front parts := by
  rcases path.split_cases with
    ⟨rest, hRest, hPieces, hSplit⟩ | ⟨hPieces, hSplit⟩ |
      ⟨hPieces, hSplit⟩ | ⟨rest, _, hPieces, hSplit⟩ |
      ⟨first, rest, hFirst, hPieces, hSplit⟩
  · rw [hSplit] at hFront
    exact exists_isCut_of_absolute hRest hPieces hSplit hFront
  · rw [hSplit] at hFront
    rw [List.prefix_nil.mp hFront]
    exact ⟨_, isCut_single isIdle_empty hPieces
      (by rw [hSplit])⟩
  · rw [hSplit] at hFront
    rw [List.prefix_nil.mp hFront]
    exact ⟨_, isCut_single isIdle_dot hPieces
      (by rw [hSplit])⟩
  · rw [hSplit] at hFront
    exact exists_isCut_of_dot hPieces hSplit hFront hLast
  · rw [hSplit] at hFront
    exact exists_isCut_of_name hFirst hPieces hSplit hFront

end Cut

/- Cutting a path loses no names. -/
theorem namesOf_split (path : FilePath) :
    namesOf path.split.pieces = path.names := by
  unfold names
  rcases path.split_cases with
    ⟨rest, _, hPieces, hSplit⟩ | ⟨hPieces, hSplit⟩ |
      ⟨hPieces, hSplit⟩ | ⟨rest, _, hPieces, hSplit⟩ |
      ⟨first, rest, _, hPieces, hSplit⟩
  · rw [hPieces, hSplit, namesOf_cons_of_idle isIdle_empty]
  · rw [hPieces, hSplit]
    decide
  · rw [hPieces, hSplit]
    decide
  · rw [hPieces, hSplit, namesOf_cons_of_idle isIdle_empty,
      namesOf_cons_of_idle isIdle_dot]
  · rw [hPieces, hSplit]

/- What a path starts from and its pieces are its text. -/
theorem toList_text (path : FilePath) :
    path.text.toList =
      path.split.start.toList ++
        (Text.joinWith "/" path.split.pieces).toList := by
  have hText : path.text.toList =
      (Text.joinWith "/" path.pieces).toList :=
    congrArg String.toList (text_eq_joinWith path).symm
  rw [hText]
  rcases path.split_cases with
    ⟨rest, hRest, hPieces, hSplit⟩ | ⟨hPieces, hSplit⟩ |
      ⟨hPieces, hSplit⟩ | ⟨rest, hRest, hPieces, hSplit⟩ |
      ⟨first, rest, _, hPieces, hSplit⟩
  · rw [hPieces, hSplit,
      Text.toList_joinWith_cons "/" "" hRest]
    rfl
  · rw [hPieces, hSplit]
    decide
  · rw [hPieces, hSplit]
    decide
  · rw [hPieces, hSplit,
      Text.toList_joinWith_cons "/" "" hRest,
      Text.toList_joinWith_cons "/" "." hRest]
    simp
  · rw [hPieces, hSplit]
    simp

/- The text of the front of a path is a front of its text. -/
theorem text_toPath_prefix
    {front : List String}
    (hFront : front <+: path.split.pieces) :
    (Split.toPath
        ⟨path.split.start, front⟩).text.toList <+:
      path.text.toList := by
  have hJoin := Text.joinWith_prefix "/" hFront
  unfold Split.toPath
  rw [toList_text path, String.toList_append]
  exact (List.prefix_append_right_inj _).mpr hJoin

------------------------------------------------------------
-- The Path Above A Path
------------------------------------------------------------

/- A path with no names, or with a name as its last piece. -/
def IsTrimmed (path : FilePath) : Prop :=
  path.names = [] ∨
    ∃ last ∈ path.pieces.getLast?, ¬ IsIdle last

/-
  The path above another one: it starts at the same place, it
  has the same names but the last, it is trimmed, and its text
  is a front of the other text.
-/
structure IsParent (parent path : FilePath) : Prop where
  start : Location.start parent = Location.start path
  names : parent.names = path.names.dropLast
  trimmed : parent.IsTrimmed
  text : parent.text.toList <+: path.text.toList

variable {parent : FilePath}

theorem isParent_toPath
    {front : List String}
    (hFront : front <+: path.split.pieces)
    (hLast : ∀ last ∈ front.getLast?, ¬ IsIdle last)
    (hNames : namesOf front = path.names.dropLast) :
    (Split.toPath
      ⟨path.split.start, front⟩).IsParent path := by
  rcases exists_isCut hFront hLast with
    ⟨parts, hParts, hSame, hEnd, hAbsolute⟩
  refine ⟨?_, ?_, ?_, text_toPath_prefix hFront⟩
  · rw [← hParts, ← isAbsolute_iff] at hAbsolute
    unfold Location.start
    simp only [hAbsolute]
  · unfold FilePath.names
    rw [hParts, hSame, hNames]
    rfl
  · cases hEnding : front.getLast? with
    | none =>
        left
        rw [List.getLast?_eq_none_iff] at hEnding
        unfold FilePath.names
        rw [hParts, hSame, hEnding]
        rfl
    | some last =>
        right
        refine ⟨last, ?_, hLast last hEnding⟩
        rw [hParts]
        exact hEnd last hEnding

/- A path that is not split behind the root is relative. -/
theorem not_isAbsolute_of_split
    (hStart : path.split.start ≠ "/") :
    ¬ path.IsAbsolute := by
  rw [isAbsolute_iff]
  rintro ⟨rest, hRest, hSame⟩
  rcases path.split_cases with
    ⟨_, _, _, hSplit⟩ | ⟨hOther, _⟩ | ⟨hOther, _⟩ |
      ⟨_, _, hOther, _⟩ | ⟨_, _, hName, hOther, _⟩
  · rw [hSplit] at hStart
    exact hStart rfl
  · rw [hSame] at hOther
    exact hRest (List.cons.inj hOther).2
  · rw [hSame] at hOther
    exact absurd (List.cons.inj hOther).1 (by decide)
  · rw [hSame] at hOther
    exact absurd (List.cons.inj hOther).1 (by decide)
  · rw [hSame] at hOther
    exact hName (.inl (List.cons.inj hOther).1.symm)

/- What the path above a path is, if there is one. -/
theorem isParent_of_parent?
    (hParent : path.parent? = some parent) :
    parent.IsParent path := by
  have hNames :
      namesOf (dropIdleEnd path.split.pieces) =
        path.names := by
    rw [namesOf_dropIdleEnd, namesOf_split]
  unfold parent? at hParent
  dsimp only at hParent
  split at hParent
  · rename_i hPieces
    rw [hPieces] at hNames
    split at hParent
    · rename_i hStart
      cases hParent
      have hRelative : ¬ path.IsAbsolute := by
        apply not_isAbsolute_of_split
        rw [hStart]
        decide
      refine ⟨?_, ?_, .inl ?_, List.nil_prefix⟩
      · unfold Location.start
        rw [if_neg hRelative, if_neg (by decide)]
      · rw [← hNames]
        decide
      · decide
    · cases hParent
  · rename_i hPieces
    cases hParent
    rcases List.eq_nil_or_concat
        (dropIdleEnd path.split.pieces) with
      hNil | ⟨front, last, hConcat⟩
    · exact absurd hNil hPieces
    · rw [List.concat_eq_append] at hConcat
      have hLast := dropIdleEnd_eq_concat hConcat
      rw [hConcat, List.dropLast_concat]
      rw [hConcat, namesOf_append,
        namesOf_cons_of_not_idle hLast] at hNames
      apply isParent_toPath
      · have hAll := dropIdleEnd_front path.split.pieces
        rw [hConcat] at hAll
        exact (dropIdleEnd_front front).trans
          ((List.prefix_append front [last]).trans hAll)
      · intro other hOther
        rcases List.getLast?_eq_some_iff.mp hOther with
          ⟨others, hOthers⟩
        exact dropIdleEnd_eq_concat hOthers
      · rw [namesOf_dropIdleEnd, ← hNames]
        exact (List.dropLast_concat).symm

/- A path with a name has a path above it. -/
theorem exists_parent?
    (hNames : path.names ≠ []) :
    ∃ parent, path.parent? = some parent := by
  have hPieces : dropIdleEnd path.split.pieces ≠ [] := by
    intro hNil
    apply hNames
    rw [← namesOf_split, ← namesOf_dropIdleEnd, hNil]
    rfl
  unfold parent?
  dsimp only
  split
  · rename_i hNil
    exact absurd hNil hPieces
  · exact ⟨_, rfl⟩

/- The path above a path with a last name. -/
theorem exists_parent_of_names
    {front : List String}
    {last : String}
    (hNames : path.names = front ++ [last]) :
    ∃ parent,
      path.parent? = some parent ∧
        parent.IsParent path ∧ parent.names = front := by
  have hSome : path.names ≠ [] := by
    rw [hNames]
    simp
  rcases exists_parent? hSome with ⟨parent, hParent⟩
  have hIs := isParent_of_parent? hParent
  refine ⟨parent, hParent, hIs, ?_⟩
  rw [hIs.names, hNames, List.dropLast_concat]

theorem forward_iff_not_mem_names :
    path.IsForward ↔ ".." ∉ path.names := by
  have hName : ¬ IsIdle ".." := by
    decide
  unfold IsForward FilePath.names namesOf
  rw [List.mem_filter]
  simp [hName]

theorem IsParent.forward
    (hParent : parent.IsParent path)
    (hForward : path.IsForward) :
    parent.IsForward := by
  rw [forward_iff_not_mem_names] at hForward ⊢
  rw [hParent.names]
  exact fun hMem => hForward (List.dropLast_subset _ hMem)

/- The place above is a front of the place. -/
theorem IsParent.place_prefix
    (hParent : parent.IsParent path) :
    parent.place <+: path.place := by
  unfold place
  rw [hParent.start, hParent.names]
  exact (List.prefix_append_right_inj _).mpr
    (List.dropLast_prefix _)

end FilePath

end Palimpsest
