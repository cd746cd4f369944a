import Palimpsest.Proofs.Files.Place

/-
  What putting another extension does to a path.

  The extension goes behind the last name of a path, in place
  of what stands behind the last dot inside this name.  Idle
  pieces behind the name are lost, and a path that ends in two
  dots is left alone.  So the extension is only appended when
  the path ends in a name without a dot inside.

  Main declarations:
    * `FilePath.cutExtension_cases`
    * `FilePath.withExtension_of_name`
    * `FilePath.withExtension_of_no_name`
    * `FilePath.EndsPlain`
    * `FilePath.withExtension_eq_append_iff`
    * `FilePath.isAbsolute_withExtension`
    * `FilePath.isForward_withExtension`
-/

namespace Palimpsest

namespace FilePath

------------------------------------------------------------
-- Cutting Off An Extension
------------------------------------------------------------

/- What is left of a name whose parts are known. -/
theorem cutExtension_eq
    {name last : String}
    {before : List String}
    (hParts : Text.splitAt '.' name = before ++ [last]) :
    (cutExtension name).1 =
      if before = [] ∨ before = [""] then
        name
      else
        Text.joinWith "." before := by
  have hReverse :
      (Text.splitAt '.' name).reverse =
        last :: before.reverse := by
    simp [hParts]
  unfold cutExtension
  rw [hReverse]
  cases hBefore : before.reverse with
  | nil =>
      simp [List.reverse_eq_nil_iff.mp hBefore]
  | cons second rest =>
      have hSome : before ≠ [] := by
        rintro rfl
        simp at hBefore
      have hFirst : second :: rest = [""] ↔ before = [""] := by
        rw [← hBefore, List.reverse_eq_iff]
        rfl
      by_cases hSingle : before = [""]
      · simp only [if_pos (hFirst.mpr hSingle),
          if_pos (Or.inr hSingle)]
      · simp only [if_neg (hFirst.not.mpr hSingle),
          if_neg (not_or.mpr ⟨hSome, hSingle⟩)]
        rw [← hBefore, List.reverse_reverse]

/-
  A name without a dot inside is not cut.  Any other name is
  cut in front of a dot.
-/
theorem cutExtension_cases (name : String) :
    ((cutExtension name).1 = name ∧
        '.' ∉ name.toList.tail) ∨
      ∃ ending,
        name.toList =
            (cutExtension name).1.toList ++ '.' :: ending ∧
          (cutExtension name).1 ≠ "" := by
  rcases List.eq_nil_or_concat (Text.splitAt '.' name) with
    hNil | ⟨before, last, hConcat⟩
  · exact absurd hNil (Text.splitAt_ne_nil name)
  rw [List.concat_eq_append] at hConcat
  have hMem : last ∈ Text.splitAt '.' name := by
    simp [hConcat]
  have hLast : '.' ∉ last.toList :=
    Text.not_mem_of_mem_splitAt hMem
  have hName := Text.joinWith_splitAt
    (show ".".toList = ['.'] by decide) name
  rw [hConcat] at hName
  rw [cutExtension_eq hConcat]
  cases before with
  | nil =>
      left
      have hSame : last = name := by
        simpa [Text.joinWith] using hName
      exact ⟨by simp,
        fun hMem => hLast
          (hSame ▸ List.mem_of_mem_tail hMem)⟩
  | cons first rest =>
      have hChars := Text.toList_joinWith_concat "." last
        (List.cons_ne_nil first rest)
      rw [hName] at hChars
      by_cases hFirst : first :: rest = [""]
      · left
        rw [hFirst] at hChars
        have hTail : name.toList.tail = last.toList := by
          rw [hChars]
          simp [Text.joinWith]
        exact ⟨by simp [hFirst], hTail ▸ hLast⟩
      · right
        rw [if_neg (by simpa using hFirst)]
        refine ⟨last.toList, by simpa using hChars, ?_⟩
        intro hEmpty
        cases rest with
        | nil =>
            exact hFirst (by
              simpa [Text.joinWith] using hEmpty)
        | cons second rest =>
            have hLong := congrArg String.toList hEmpty
            rw [Text.toList_joinWith_cons "." first
              (by simp)] at hLong
            simp at hLong

/- What is left of a name is a front of it. -/
theorem cutExtension_front (name : String) :
    (cutExtension name).1.toList <+: name.toList := by
  rcases cutExtension_cases name with
    ⟨hSame, _⟩ | ⟨ending, hName, _⟩
  · exact hSame.symm ▸ List.prefix_rfl
  · exact hName ▸ List.prefix_append _ _

/- A name is left whole when no dot stands inside. -/
theorem cutExtension_eq_self_iff (name : String) :
    (cutExtension name).1 = name ↔ '.' ∉ name.toList.tail := by
  rcases cutExtension_cases name with
    ⟨hSame, hTail⟩ | ⟨ending, hName, hSome⟩
  · exact iff_of_true hSame hTail
  · refine iff_of_false (fun hSame => ?_) (not_not.mpr ?_)
    · rw [hSame] at hName
      simp at hName
    · have hChars : (cutExtension name).1.toList ≠ [] := by
        simpa using hSome
      rw [hName, List.tail_append_of_ne_nil hChars]
      simp

------------------------------------------------------------
-- The Last Name Of A Path
------------------------------------------------------------

variable {path : FilePath} {front rest : List String}
variable {piece last extension : String}

/- An idle piece stays when a name stands behind it. -/
theorem dropIdleEnd_cons_of_idle
    (hPiece : IsIdle piece)
    (rest : List String) :
    dropIdleEnd (piece :: rest) =
      if dropIdleEnd rest = [] then
        []
      else
        piece :: dropIdleEnd rest := by
  unfold dropIdleEnd
  rw [List.reverse_cons, List.dropWhile_append]
  by_cases hRest :
      rest.reverse.dropWhile
        (fun p => decide (IsIdle p)) = [] <;>
    simp [hRest, hPiece]

theorem exists_dropIdleEnd_of_cons
    (hPiece : IsIdle piece)
    (hKept : dropIdleEnd (piece :: rest) = front ++ [last]) :
    ∃ kept,
      front = piece :: kept ∧
        dropIdleEnd rest = kept ++ [last] := by
  rw [dropIdleEnd_cons_of_idle hPiece] at hKept
  by_cases hRest : dropIdleEnd rest = []
  · simp [hRest] at hKept
  · rw [if_neg hRest] at hKept
    cases front with
    | nil =>
        exact absurd (List.cons.inj hKept).2 hRest
    | cons first kept =>
        rcases List.cons.inj hKept with ⟨hFirst, hMore⟩
        exact ⟨kept, by rw [hFirst], hMore⟩

/-
  The start of a path and the pieces up to its last name make
  up the path that these pieces have.
-/
theorem exists_dropIdleEnd_split
    (hKept : dropIdleEnd path.pieces = front ++ [last]) :
    ∃ kept,
      dropIdleEnd path.split.pieces = kept ++ [last] ∧
        ∀ file,
          path.split.start ++
              Text.joinWith "/" (kept ++ [file]) =
            Text.joinWith "/" (front ++ [file]) := by
  have hNothing : dropIdleEnd [] = [] := rfl
  rcases path.split_cases with
    ⟨rest, _, hPieces, hSplit⟩ | ⟨hPieces, _⟩ |
      ⟨hPieces, _⟩ | ⟨rest, _, hPieces, hSplit⟩ |
      ⟨first, rest, _, hPieces, hSplit⟩
  · rw [hPieces] at hKept
    rcases exists_dropIdleEnd_of_cons isIdle_empty hKept with
      ⟨kept, rfl, hRest⟩
    refine ⟨kept, by rw [hSplit, hRest], fun file => ?_⟩
    apply String.toList_inj.mp
    rw [hSplit, List.cons_append,
      Text.toList_joinWith_cons "/" "" (by simp)]
    simp
  · rw [hPieces] at hKept
    rcases exists_dropIdleEnd_of_cons isIdle_empty hKept with
      ⟨kept, _, hRest⟩
    simp [hNothing] at hRest
  · rw [hPieces] at hKept
    rcases exists_dropIdleEnd_of_cons isIdle_dot hKept with
      ⟨kept, _, hRest⟩
    simp [hNothing] at hRest
  · rw [hPieces] at hKept
    rcases exists_dropIdleEnd_of_cons isIdle_dot hKept with
      ⟨kept, rfl, hRest⟩
    refine ⟨"" :: kept, ?_, fun file => ?_⟩
    · rw [hSplit, dropIdleEnd_cons_of_idle isIdle_empty, hRest]
      simp
    · apply String.toList_inj.mp
      rw [hSplit, List.cons_append, List.cons_append,
        Text.toList_joinWith_cons "/" "." (by simp),
        String.toList_append,
        Text.toList_joinWith_cons "/" "" (by simp)]
      simp
  · rw [hPieces] at hKept
    refine ⟨front, by rw [hSplit, hKept], fun file => ?_⟩
    rw [hSplit, String.empty_append]

/- A path has the last name that its pieces have. -/
theorem fileName?_eq (path : FilePath) :
    path.fileName? =
      (dropIdleEnd path.pieces).getLast?.filter
        (fun name => name ≠ "..") := by
  have hSame :
      (dropIdleEnd path.split.pieces).getLast? =
        (dropIdleEnd path.pieces).getLast? := by
    rcases List.eq_nil_or_concat (dropIdleEnd path.pieces)
      with hNil | ⟨front, last, hConcat⟩
    · have hIdle := namesOf_dropIdleEnd path.pieces
      rw [hNil] at hIdle
      have hNames : namesOf path.split.pieces = [] := by
        rw [namesOf_split]
        exact hIdle.symm
      have hSplit : dropIdleEnd path.split.pieces = [] := by
        rw [dropIdleEnd_eq_rdropWhile,
          List.rdropWhile_eq_nil_iff]
        simpa using namesOf_eq_nil_iff.mp hNames
      rw [hNil, hSplit]
    · rw [List.concat_eq_append] at hConcat
      rcases exists_dropIdleEnd_split hConcat with
        ⟨kept, hSplit, _⟩
      simp [hConcat, hSplit]
  unfold fileName?
  rw [hSame]
  cases (dropIdleEnd path.pieces).getLast? with
  | none =>
      rfl
  | some name =>
      by_cases hUp : name = ".." <;>
        simp [hUp, Option.filter]

------------------------------------------------------------
-- Another Extension
------------------------------------------------------------

/- A path that does not end in a name is left alone. -/
theorem withExtension_of_no_name
    (hName : path.fileName? = none) :
    path.withExtension extension = path := by
  simp [withExtension, hName]

/- The extension goes behind the last name of a path. -/
theorem withExtension_of_name
    (hExtension : extension ≠ "")
    (hKept : dropIdleEnd path.pieces = front ++ [last])
    (hUp : last ≠ "..") :
    path.withExtension extension =
      ⟨Text.joinWith "/"
        (front ++
          [(cutExtension last).1 ++ "." ++ extension])⟩ := by
  have hName : path.fileName? = some last := by
    simp [fileName?_eq, hKept, hUp, Option.filter]
  rcases exists_dropIdleEnd_split hKept with
    ⟨kept, hSplit, hText⟩
  unfold withExtension
  rw [hName]
  dsimp only
  rw [hSplit, List.dropLast_concat, if_neg hExtension]
  unfold Split.toPath
  dsimp only
  rw [hText, Text.joinWith_concat_append,
    Text.joinWith_concat_append]

/- A path is its pieces up to the last name and idle ones. -/
theorem exists_idle_end (path : FilePath) :
    ∃ idle,
      path.pieces = dropIdleEnd path.pieces ++ idle ∧
        ∀ piece ∈ idle, IsIdle piece := by
  refine ⟨path.pieces.rtakeWhile
    (fun p => decide (IsIdle p)), ?_, ?_⟩
  · exact List.rdropWhile_append_rtakeWhile.symm
  · intro piece hPiece
    simpa using List.mem_rtakeWhile_imp hPiece

/-
  What another extension does to the pieces of a path: none
  without a name, else the last name gets the extension and
  the idle pieces behind it are lost.
-/
theorem withExtension_cases
    (hExtension : extension ≠ "")
    (hSlash : separator ∉ extension.toList)
    (path : FilePath) :
    (path.withExtension extension = path ∧
        ∀ last ∈ (dropIdleEnd path.pieces).getLast?,
          last = "..") ∨
      ∃ front last idle,
        path.pieces = front ++ last :: idle ∧
          ¬ IsIdle last ∧ last ≠ ".." ∧
            (∀ piece ∈ idle, IsIdle piece) ∧
              (path.withExtension extension).pieces =
                front ++
                  [(cutExtension last).1 ++ "." ++
                    extension] := by
  rcases List.eq_nil_or_concat (dropIdleEnd path.pieces) with
    hNil | ⟨front, last, hConcat⟩
  · left
    refine ⟨withExtension_of_no_name ?_, by simp [hNil]⟩
    simp [fileName?_eq, hNil]
  rw [List.concat_eq_append] at hConcat
  by_cases hUp : last = ".."
  · left
    refine ⟨withExtension_of_no_name ?_,
      by simp [hConcat, hUp]⟩
    simp [fileName?_eq, hConcat, hUp, Option.filter]
  · right
    rcases path.exists_idle_end with ⟨idle, hPieces, hIdle⟩
    rw [hConcat] at hPieces
    have hParts : ∀ piece ∈ front ++
        [(cutExtension last).1 ++ "." ++ extension],
          separator ∉ piece.toList := by
      have hOld : ∀ piece ∈ front ++ [last] ++ idle,
          separator ∉ piece.toList := by
        rw [← hPieces]
        exact fun piece hPiece =>
          separator_not_mem_of_mem_pieces hPiece
      intro piece hPiece
      rcases List.mem_append.mp hPiece with hFront | hLast
      · exact hOld piece (by simp [hFront])
      · have hCut := (cutExtension_front last).subset
        have hWhole := hOld last (by simp)
        have hDot : separator ≠ '.' := by
          decide
        rw [List.mem_singleton.mp hLast]
        simp only [String.toList_append, List.mem_append,
          not_or]
        exact ⟨⟨fun hMem => hWhole (hCut hMem),
          by simpa using hDot⟩, hSlash⟩
    refine ⟨front, last, idle, by simpa using hPieces,
      dropIdleEnd_eq_concat hConcat, hUp, hIdle, ?_⟩
    rw [withExtension_of_name hExtension hConcat hUp]
    exact pieces_mk_joinWith hParts (by simp)

/- An extension on the last name is an extension at the end. -/
theorem pieces_append_extension
    (hSlash : separator ∉ extension.toList)
    (hPieces : path.pieces = front ++ [last]) :
    pieces ⟨path.text ++ "." ++ extension⟩ =
      front ++ [last ++ "." ++ extension] := by
  have hDot : separator ≠ '.' := by
    decide
  have hOld : ∀ piece ∈ front ++ [last],
      separator ∉ piece.toList := by
    rw [← hPieces]
    exact fun piece hPiece =>
      separator_not_mem_of_mem_pieces hPiece
  rw [List.forall_mem_append, List.forall_mem_singleton]
    at hOld
  rw [← text_eq_joinWith path, hPieces,
    Text.joinWith_concat_append, Text.joinWith_concat_append]
  apply pieces_mk_joinWith _ (by simp)
  rw [List.forall_mem_append, List.forall_mem_singleton]
  refine ⟨hOld.1, ?_⟩
  simp only [String.toList_append, List.mem_append, not_or]
  exact ⟨⟨hOld.2, by simpa using hDot⟩, hSlash⟩

/- A path that ends in a name without a dot inside. -/
def EndsPlain (path : FilePath) : Prop :=
  ∀ last ∈ path.pieces.getLast?,
    ¬ IsIdle last ∧ '.' ∉ last.toList.tail

instance (path : FilePath) : Decidable path.EndsPlain := by
  unfold EndsPlain
  infer_instance

theorem endsPlain_iff
    (hPieces : path.pieces = front ++ [last]) :
    path.EndsPlain ↔
      ¬ IsIdle last ∧ '.' ∉ last.toList.tail := by
  simp [EndsPlain, hPieces]

/- Paths with the same pieces are the same. -/
theorem eq_of_pieces
    {other : FilePath}
    (hPieces : path.pieces = other.pieces) :
    path = other := by
  have hText : path.text = other.text := by
    rw [← text_eq_joinWith, hPieces, text_eq_joinWith]
  cases path
  cases other
  exact congrArg FilePath.mk hText

/- No path is itself with an extension at the end. -/
theorem ne_append_extension (path : FilePath) :
    path ≠ ⟨path.text ++ "." ++ extension⟩ := by
  intro hSame
  have hChars := congrArg (fun p => p.text.toList) hSame
  simp at hChars

/-
  The extension is only appended when the path ends in a name
  without a dot inside.
-/
theorem withExtension_eq_append_iff
    (hExtension : extension ≠ "")
    (hSlash : separator ∉ extension.toList)
    (path : FilePath) :
    path.withExtension extension =
        ⟨path.text ++ "." ++ extension⟩ ↔
      path.EndsPlain := by
  rcases List.eq_nil_or_concat path.pieces with
    hNil | ⟨others, final, hPieces⟩
  · exact absurd hNil (Text.splitAt_ne_nil path.text)
  rw [List.concat_eq_append] at hPieces
  rw [endsPlain_iff hPieces]
  have hAppended := pieces_append_extension hSlash hPieces
  rcases withExtension_cases hExtension hSlash path with
    ⟨hSame, hUp⟩ |
      ⟨front, last, idle, hSplit, hLast, _, hIdle, hText⟩
  · rw [hSame]
    refine iff_of_false path.ne_append_extension ?_
    rintro ⟨hFinal, hDot⟩
    have hKept : dropIdleEnd path.pieces = others ++ [final] := by
      rw [hPieces, dropIdleEnd_eq_rdropWhile,
        List.rdropWhile_concat, if_neg (by simpa using hFinal)]
    have hDots := hUp final (by simp [hKept])
    rw [hDots] at hDot
    exact hDot (by decide)
  · rw [hPieces] at hSplit
    rcases List.eq_nil_or_concat idle with
      rfl | ⟨idle, final', rfl⟩
    -- The last piece is the name, and is cut or not.
    · rcases List.append_inj' hSplit rfl with ⟨rfl, hFinal⟩
      cases hFinal
      rw [and_iff_right hLast, ← cutExtension_eq_self_iff]
      constructor
      · intro hSame
        have hBoth := congrArg pieces hSame
        rw [hText, hAppended] at hBoth
        simpa using hBoth
      · intro hCut
        apply eq_of_pieces
        rw [hText, hAppended, hCut]
    -- The last piece is idle, and is lost.
    · rw [List.concat_eq_append] at hSplit hIdle
      have hEnd : others = front ++ last :: idle ∧
          final = final' := by
        rw [← List.cons_append, ← List.append_assoc] at hSplit
        simpa using List.append_inj' hSplit rfl
      refine iff_of_false (fun hSame => ?_) (fun hPlain => ?_)
      · have hBoth := congrArg pieces hSame
        rw [hText, hAppended, hEnd.1] at hBoth
        have hLength := congrArg List.length hBoth
        simp at hLength
      · exact hPlain.1 (hEnd.2 ▸ hIdle final' (by simp))

/- Another extension leaves a path absolute or not. -/
theorem isAbsolute_withExtension
    (hExtension : extension ≠ "")
    (hSlash : separator ∉ extension.toList)
    (path : FilePath) :
    (path.withExtension extension).IsAbsolute ↔
      path.IsAbsolute := by
  rcases withExtension_cases hExtension hSlash path with
    ⟨hSame, _⟩ |
      ⟨front, last, idle, hSplit, hLast, _, _, hText⟩
  · rw [hSame]
  · rw [isAbsolute_iff, isAbsolute_iff, hText, hSplit]
    cases front with
    | nil =>
        refine iff_of_false ?_ ?_
        · rintro ⟨rest, hRest, hSame⟩
          exact hRest (List.cons.inj hSame).2.symm
        · rintro ⟨rest, _, hSame⟩
          exact hLast (.inl (List.cons.inj hSame).1)
    | cons first front =>
        simp only [List.cons_append, List.cons.injEq]
        constructor <;>
        · rintro ⟨rest, _, hFirst, _⟩
          exact ⟨_, by simp, hFirst, rfl⟩

/- A name with an extension is no step up. -/
theorem append_extension_ne_dots
    (hExtension : extension ≠ "")
    (hDot : extension.toList.head? ≠ some '.')
    (name : String) :
    name ++ "." ++ extension ≠ ".." := by
  intro hSame
  have hChars :
      name.toList ++ '.' :: extension.toList =
        ['.', '.'] := by
    simpa using congrArg String.toList hSame
  have hSome : extension.toList ≠ [] := by
    simpa using hExtension
  rcases List.append_eq_cons_iff.mp hChars with
    ⟨_, hMore⟩ | ⟨others, _, hMore⟩
  · rw [(List.cons.inj hMore).2] at hDot
    exact hDot rfl
  · have hLength := congrArg List.length hMore
    have hPositive := List.length_pos_iff.mpr hSome
    simp only [List.length_append, List.length_cons,
      List.length_nil] at hLength
    omega

/- Another extension takes no step up away and adds none. -/
theorem isForward_withExtension
    (hExtension : extension ≠ "")
    (hSlash : separator ∉ extension.toList)
    (hDot : extension.toList.head? ≠ some '.')
    (path : FilePath) :
    (path.withExtension extension).IsForward ↔
      path.IsForward := by
  rcases withExtension_cases hExtension hSlash path with
    ⟨hSame, _⟩ |
      ⟨front, last, idle, hSplit, _, hUp, hIdle, hText⟩
  · rw [hSame]
  · have hIdleUp : ".." ∉ idle := by
      intro hMem
      exact absurd (hIdle _ hMem) (by decide)
    have hFile := append_extension_ne_dots hExtension hDot
      (cutExtension last).1
    unfold IsForward
    rw [hText, hSplit]
    simp [hUp.symm, hFile.symm, hIdleUp]

/- A name with an extension is a name. -/
theorem not_isIdle_append_extension
    (hExtension : extension ≠ "")
    (name : String) :
    ¬ IsIdle (name ++ "." ++ extension) := by
  have hSome : extension.toList ≠ [] := by
    simpa using hExtension
  have hPositive := List.length_pos_iff.mpr hSome
  rintro (hEmpty | hDot)
  · simp at hEmpty
  · have hLength :=
      congrArg (fun text => text.toList.length) hDot
    simp only [String.toList_append, List.length_append,
      show ".".toList.length = 1 by decide] at hLength
    omega

/- The last step to a path takes the extension. -/
theorem names_withExtension
    (hExtension : extension ≠ "")
    (hSlash : separator ∉ extension.toList)
    (hForward : path.IsForward)
    (hNames : path.names = front ++ [last]) :
    (path.withExtension extension).names =
      front ++ [(cutExtension last).1 ++ "." ++ extension] := by
  rcases withExtension_cases hExtension hSlash path with
    ⟨_, hUp⟩ |
      ⟨others, final, idle, hSplit, hFinal, _, hIdle, hText⟩
  · have hKept := namesOf_dropIdleEnd path.pieces
    rcases List.eq_nil_or_concat (dropIdleEnd path.pieces) with
      hNil | ⟨others, final, hConcat⟩
    · rw [hNil] at hKept
      have hNone := hKept.trans hNames
      simp [namesOf] at hNone
    · have hFront := dropIdleEnd_front path.pieces
      rw [hConcat, List.concat_eq_append] at hFront hUp
      have hFinal : final = ".." := hUp final (by simp)
      exact absurd (hFront.subset (by simp [hFinal])) hForward
  · have hFile := not_isIdle_append_extension hExtension
      (cutExtension final).1
    have hAll : namesOf others ++ [final] = front ++ [last] := by
      rw [← hNames, names, hSplit, namesOf_append,
        namesOf_cons_of_not_idle hFinal,
        namesOf_eq_nil_iff.mpr hIdle]
    rcases List.append_inj' hAll rfl with ⟨hFront, hLast⟩
    cases hLast
    rw [names, hText, namesOf_append,
      namesOf_cons_of_not_idle hFile, hFront]
    rfl

end FilePath

end Palimpsest
