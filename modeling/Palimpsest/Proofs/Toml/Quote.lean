import Palimpsest.Toml.Spelling

/-
  Quoted texts are read as they were spelled.

  What is written between quotes consists of pieces that the
  search for the closing quotes passes over as a whole, and of
  quotes, of which only so many stand in a row as the form
  allows.  So the search finds exactly what was written.
  Resolving the escapes in it gives the text again.

  Main declarations:
    * `Toml.Form.Passes`
    * `Toml.Form.cut_escape`
    * `Toml.Form.cut_raw`
    * `Toml.Form.Stands`
    * `Toml.unescape_escape`
    * `Toml.isContent_of_mem_escape`
-/

namespace Palimpsest

namespace Toml

------------------------------------------------------------
-- Extents In Either Form
------------------------------------------------------------

namespace Quote

/- A character that neither closes a text nor escapes. -/
def IsInert
    (q : Quote)
    (c : Char) : Prop :=
  c ≠ q.mark ∧ ¬ q.Escapes c

instance (q : Quote) (c : Char) : Decidable (q.IsInert c) := by
  unfold IsInert
  infer_instance

/- Put characters in front of what was cut out. -/
def keepAll
    (front : List Char)
    (cut : List Char × List Char) : List Char × List Char :=
  (front ++ cut.1, cut.2)

theorem map_keepAll_append
    (front more : List Char)
    (cut : Option (List Char × List Char)) :
    (cut.map (keepAll more)).map (keepAll front) =
      cut.map (keepAll (front ++ more)) := by
  cases cut with
  | none =>
      rfl
  | some found =>
      simp [keepAll]

/- A quote is no line break. -/
theorem mark_ne_newline (q : Quote) : q.mark ≠ '\n' := by
  cases q <;> decide

/- Two quotes in a row are too few to end a long text. -/
theorem not_fence_of_few
    {q : Quote}
    {n : Nat}
    (hFew : n ≤ maxInnerMarks)
    {c : Char}
    (hMark : c ≠ q.mark)
    (cs : List Char) :
    ¬ q.fence.isPrefixOf (List.replicate n q.mark ++ c :: cs) := by
  have hCases : n = 0 ∨ n = 1 ∨ n = 2 := by
    unfold maxInnerMarks at hFew
    omega
  rcases hCases with rfl | rfl | rfl <;>
    simp [fence, List.replicate, hMark.symm]

/- Another character does not end a long text. -/
theorem not_fence_of_ne
    {q : Quote}
    {c : Char}
    (hMark : c ≠ q.mark)
    (cs : List Char) :
    ¬ q.fence.isPrefixOf (c :: cs) :=
  @not_fence_of_few q 0 (Nat.zero_le _) c hMark cs

/- A character that starts no fence and no escape is kept. -/
theorem cutLong_cons
    {q : Quote}
    {c : Char}
    {cs : List Char}
    (hFence : ¬ q.fence.isPrefixOf (c :: cs))
    (hPlain : ¬ q.Escapes c) :
    q.cutLong (c :: cs) =
      (q.cutLong cs).map (keepAll [c]) := by
  rw [cutLong.eq_def]
  exact (if_neg hFence).trans (if_neg hPlain)

end Quote

namespace Form

open Quote

/- The text up to the end of a form, and what follows. -/
def cut : Form → List Char → Option (List Char × List Char)
| .short q => q.cutShort
| .long q => q.cutLong

/- A character that a form lets stand in a text. -/
def Admits
    (f : Form)
    (c : Char) : Prop :=
  f.IsLong ∨ c ≠ '\n'

/- An inert character is passed over. -/
theorem cut_inert
    {f : Form}
    {c : Char}
    (hInert : f.quote.IsInert c)
    (hAdmits : f.Admits c)
    (cs : List Char) :
    f.cut (c :: cs) = (f.cut cs).map (keepAll [c]) := by
  cases f with
  | short q =>
      have hLine : c ≠ '\n' :=
        hAdmits.resolve_left id
      have hMark : c ≠ q.mark :=
        hInert.1
      have hPlain : ¬ q.Escapes c :=
        hInert.2
      rw [cut, cutShort.eq_def]
      dsimp only
      rw [if_neg hLine, if_neg hMark, if_neg hPlain]
      rfl
  | long q =>
      exact cutLong_cons (not_fence_of_ne hInert.1 cs)
        hInert.2

/- An escaped character is passed over with its backslash. -/
theorem cut_escaped
    {f : Form}
    (hDouble : f.quote = .double)
    {d : Char}
    (hAdmits : f.Admits d)
    (cs : List Char) :
    f.cut ('\\' :: d :: cs) =
      (f.cut cs).map (keepAll ['\\', d]) := by
  have hEscapes : Quote.double.Escapes '\\' :=
    ⟨rfl, rfl⟩
  have hMark : '\\' ≠ Quote.double.mark := by
    decide
  cases f with
  | short q =>
      cases hDouble
      have hLine : d ≠ '\n' :=
        hAdmits.resolve_left id
      rw [cut, cutShort.eq_def]
      dsimp only
      rw [if_neg (by decide), if_neg hMark, if_pos hEscapes,
        if_neg hLine]
      rfl
  | long q =>
      cases hDouble
      rw [cut, cutLong.eq_def]
      dsimp only
      rw [if_neg (not_fence_of_ne hMark _), if_pos hEscapes]
      rfl

------------------------------------------------------------
-- Quotes In A Row
------------------------------------------------------------

theorem replicate_append_cons
    (n : Nat)
    (c : Char)
    (cs : List Char) :
    List.replicate n c ++ c :: cs =
      List.replicate (n + 1) c ++ cs := by
  rw [List.replicate_succ', List.append_assoc]
  rfl

/- So few quotes in a row do not end a text. -/
theorem cut_marks
    {f : Form}
    {n : Nat}
    (hFew : n ≤ f.maxMarks)
    {c : Char}
    (hMark : c ≠ f.quote.mark)
    (cs : List Char) :
    f.cut (List.replicate n f.quote.mark ++ c :: cs) =
      (f.cut (c :: cs)).map
        (keepAll (List.replicate n f.quote.mark)) := by
  induction n with
  | zero =>
      exact Option.map_id'.symm
  | succ n ih =>
      cases f with
      | short q =>
          exact absurd hFew (Nat.not_succ_le_zero n)
      | long q =>
          have hPlain : ¬ q.Escapes q.mark := by
            cases q <;> decide
          have hFence := not_fence_of_few hFew hMark cs
          have hRest :
              q.cutLong (List.replicate n q.mark ++ c :: cs) =
                (q.cutLong (c :: cs)).map
                  (keepAll (List.replicate n q.mark)) :=
            ih (Nat.le_of_succ_le hFew)
          refine (cutLong_cons hFence hPlain).trans ?_
          refine (congrArg (Option.map _) hRest).trans ?_
          exact map_keepAll_append _ _ _

/- Few quotes in a row are all that is taken of them. -/
theorem takeWhile_marks
    {q : Quote}
    {n : Nat}
    (hFew : n ≤ maxInnerMarks)
    {rest : List Char}
    (hRest : rest.head? ≠ some q.mark) :
    ((List.replicate n q.mark ++ rest).take
        maxInnerMarks).takeWhile
          (fun d => decide (d = q.mark)) =
      List.replicate n q.mark := by
  have hLater (m : Nat) :
      (rest.take m).takeWhile
        (fun d => decide (d = q.mark)) = [] := by
    cases rest with
    | nil =>
        rw [List.take_nil]
        rfl
    | cons d ds =>
        have hd : d ≠ q.mark :=
          fun hEq => hRest (congrArg some hEq)
        cases m with
        | zero =>
            rfl
        | succ m =>
            exact List.takeWhile_cons_of_neg (by simpa using hd)
  have hFront :
      (List.replicate n q.mark).take maxInnerMarks =
        List.replicate n q.mark := by
    apply List.take_of_length_le
    rwa [List.length_replicate]
  rw [List.take_append, hFront,
    List.takeWhile_append_of_pos (by simp), hLater,
    List.append_nil]

/- The quotes that close a text end it, with some before. -/
theorem cut_end
    {f : Form}
    {n : Nat}
    (hFew : n ≤ f.maxMarks)
    {rest : List Char}
    (hRest : rest.head? ≠ some f.quote.mark) :
    f.cut (List.replicate n f.quote.mark ++
        (f.delimiter ++ rest)) =
      some (List.replicate n f.quote.mark, rest) := by
  cases f with
  | short q =>
      have hNone : n = 0 :=
        Nat.le_zero.mp hFew
      subst hNone
      rw [cut]
      exact (cutShort.eq_def q (q.mark :: rest)).trans
        ((if_neg q.mark_ne_newline).trans (if_pos rfl))
  | long q =>
      -- Quotes are alike, so the inner ones may stand behind.
      have hText :
          List.replicate n q.mark ++ (q.fence ++ rest) =
            q.mark :: q.mark :: q.mark ::
              (List.replicate n q.mark ++ rest) := by
        unfold Quote.fence
        rw [← List.append_assoc, List.replicate_append_replicate,
          Nat.add_comm, ← List.replicate_append_replicate,
          List.append_assoc]
        rfl
      have hFence :
          q.fence.isPrefixOf
            (q.mark :: q.mark :: q.mark ::
              (List.replicate n q.mark ++ rest)) :=
        List.isPrefixOf_iff_prefix.mpr ⟨_, rfl⟩
      have hInner := @takeWhile_marks q n hFew rest hRest
      refine (congrArg q.cutLong hText).trans ?_
      rw [cutLong.eq_def]
      dsimp only
      rw [if_pos hFence, List.drop_succ_cons,
        List.drop_succ_cons, List.drop_zero, hInner,
        List.drop_left]
      rfl

------------------------------------------------------------
-- Pieces
------------------------------------------------------------

/-
  A piece of a text that the search for the closing quotes
  passes over as a whole.
-/
structure Passes
    (f : Form)
    (piece : List Char) : Prop where
  head : ∃ c cs, piece = c :: cs ∧ c ≠ f.quote.mark
  cut : ∀ rest,
    f.cut (piece ++ rest) = (f.cut rest).map (keepAll piece)

theorem passes_inert
    {f : Form}
    {c : Char}
    (hInert : f.quote.IsInert c)
    (hAdmits : f.Admits c) :
    f.Passes [c] where
  head := ⟨c, [], rfl, hInert.1⟩
  cut := cut_inert hInert hAdmits

theorem passes_escaped
    {f : Form}
    (hDouble : f.quote = .double)
    {d : Char}
    (hAdmits : f.Admits d) :
    f.Passes ['\\', d] where
  head := by
    refine ⟨'\\', [d], rfl, ?_⟩
    rw [hDouble]
    decide
  cut := cut_escaped hDouble hAdmits

/- Two pieces in a row are a piece. -/
theorem Passes.append
    {f : Form}
    {piece more : List Char}
    (hPiece : f.Passes piece)
    (hMore : f.Passes more) :
    f.Passes (piece ++ more) where
  head := by
    rcases hPiece.head with ⟨c, cs, rfl, hMark⟩
    exact ⟨c, cs ++ more, rfl, hMark⟩
  cut := by
    intro rest
    rw [List.append_assoc, hPiece.cut, hMore.cut,
      map_keepAll_append]

/- Inert characters make a piece longer. -/
theorem Passes.append_inert
    {f : Form}
    {piece more : List Char}
    (hPiece : f.Passes piece)
    (hMore : ∀ c ∈ more, f.quote.IsInert c ∧ f.Admits c) :
    f.Passes (piece ++ more) := by
  induction more generalizing piece with
  | nil =>
      rwa [List.append_nil]
  | cons c more ih =>
      rw [List.forall_mem_cons] at hMore
      have hLonger :=
        hPiece.append (passes_inert hMore.1.1 hMore.1.2)
      rw [List.append_cons]
      exact ih hLonger hMore.2

/- A piece after few quotes in a row. -/
theorem Passes.cut_marks
    {f : Form}
    {n : Nat}
    (hFew : n ≤ f.maxMarks)
    {piece : List Char}
    (hPiece : f.Passes piece)
    (rest : List Char) :
    f.cut (List.replicate n f.quote.mark ++
        (piece ++ rest)) =
      (f.cut rest).map
        (keepAll
          (List.replicate n f.quote.mark ++ piece)) := by
  have hCut := hPiece.cut rest
  rcases hPiece.head with ⟨c, cs, rfl, hMark⟩
  have hMarks := Form.cut_marks hFew hMark (cs ++ rest)
  refine hMarks.trans ?_
  refine (congrArg (Option.map _) hCut).trans ?_
  exact map_keepAll_append _ _ _

end Form

------------------------------------------------------------
-- Escapes
------------------------------------------------------------

/- A character that stands for itself. -/
theorem unescape_plain
    {c : Char}
    (hPlain : c ≠ '\\')
    (hContent : IsContent c ∨ c = '\n')
    (rest : List Char) :
    unescape .nothing (c :: rest) =
      (unescape .nothing rest).map (c :: ·) := by
  rw [unescape.eq_def]
  dsimp only
  rw [if_neg (by decide), if_neg (by simp), if_neg hPlain,
    if_pos hContent]

/- An escape with a letter. -/
theorem unescape_letter
    {d x : Char}
    (hLetter : letter? d = some x)
    (rest : List Char) :
    unescape .nothing ('\\' :: d :: rest) =
      (unescape .nothing rest).map (x :: ·) := by
  rw [unescape.eq_def]
  dsimp only
  rw [if_neg (by decide), if_neg (by simp), if_pos rfl]
  split
  · rename_i hNil
    cases hNil
  · rename_i hEq
    cases hEq
    cases hLetter
  · rename_i hEq
    cases hEq
    cases hLetter
  · rename_i hEq
    cases hEq
    rw [hLetter]

/- An escape with the code point of a character. -/
theorem unescape_codePoint
    {digits : List Char}
    {x : Char}
    (hLength : digits.length = 4)
    (hPoint : codePoint? digits = some x)
    (rest : List Char) :
    unescape .nothing ('\\' :: 'u' :: digits ++ rest) =
      (unescape .nothing rest).map (x :: ·) := by
  match digits, hLength with
  | [h₁, h₂, h₃, h₄], _ =>
      rw [unescape.eq_def]
      dsimp only [List.cons_append, List.nil_append]
      rw [if_neg (by decide), if_neg (by simp), if_pos rfl]
      simp only [hPoint, Option.bind_some]

------------------------------------------------------------
-- Pieces That Stand For Characters
------------------------------------------------------------

/- Characters that an escape between double quotes can have. -/
def AreInert (cs : List Char) : Prop :=
  ∀ c ∈ cs, Quote.double.IsInert c ∧ IsContent c

instance (cs : List Char) : Decidable (AreInert cs) :=
  List.decidableBAll _ _

/- The digits in the escape of a control character. -/
def controlDigits (c : Char) : List Char :=
  (escapeControl c).drop 2

/- Four digits stand for each control character. -/
theorem controlDigits_spec
    {c : Char}
    (hControl : ¬ IsContent c) :
    (controlDigits c).length = 4 ∧
      codePoint? (controlDigits c) = some c ∧
        AreInert (controlDigits c) := by
  have hAll : ∀ n < 128, ¬ IsContent (Char.ofNat n) →
      (controlDigits (Char.ofNat n)).length = 4 ∧
        codePoint? (controlDigits (Char.ofNat n)) =
          some (Char.ofNat n) ∧
        AreInert (controlDigits (Char.ofNat n)) := by
    decide
  have hSmall : c.toNat < 128 := by
    unfold IsContent at hControl
    omega
  have hAt := hAll c.toNat hSmall
  rw [Char.ofNat_toNat] at hAt
  exact hAt hControl

namespace Form

/-
  A piece that stands for a character: it is passed over as a
  whole and resolved to the character.
-/
structure Stands
    (f : Form)
    (c : Char)
    (piece : List Char) : Prop where
  passes : f.Passes piece
  meaning : ∀ rest,
    unescape .nothing (piece ++ rest) =
      (unescape .nothing rest).map (c :: ·)

theorem stands_plain
    {f : Form}
    (hDouble : f.quote = .double)
    {c : Char}
    (hMark : c ≠ '"')
    (hPlain : c ≠ '\\')
    (hContent : IsContent c ∨ c = '\n')
    (hAdmits : f.Admits c) :
    f.Stands c [c] where
  passes := by
    refine passes_inert ?_ hAdmits
    rw [hDouble]
    exact ⟨hMark, fun hEscapes => hPlain hEscapes.2⟩
  meaning := unescape_plain hPlain hContent

theorem stands_letter
    {f : Form}
    (hDouble : f.quote = .double)
    {d x : Char}
    (hLetter : letter? d = some x) :
    f.Stands x ['\\', d] where
  passes := by
    refine passes_escaped hDouble (.inr ?_)
    rintro rfl
    cases hLetter
  meaning := unescape_letter hLetter

theorem stands_control
    {f : Form}
    (hDouble : f.quote = .double)
    {c : Char}
    (hControl : ¬ IsContent c) :
    f.Stands c (escapeControl c) := by
  rcases controlDigits_spec hControl with
    ⟨hLength, hPoint, hInert⟩
  have hSpelling :
      escapeControl c = ['\\', 'u'] ++ controlDigits c :=
    rfl
  rw [hSpelling]
  refine ⟨?_, unescape_codePoint hLength hPoint⟩
  refine (passes_escaped hDouble (.inr (by decide))).append_inert
    (fun d hd => ⟨?_, .inr ?_⟩)
  · rw [hDouble]
    exact (hInert d hd).1
  · rintro rfl
    exact absurd (hInert _ hd).2 (by decide)

/- Every character but a quote is written as such a piece. -/
theorem stands_escapeChar
    {f : Form}
    (hDouble : f.quote = .double)
    {c : Char}
    (hMark : c ≠ '"') :
    f.Stands c (escapeChar f c) := by
  unfold escapeChar
  split
  · subst c
    exact stands_letter hDouble rfl
  split
  · subst c
    exact stands_letter hDouble rfl
  split
  · subst c
    split
    · rename_i hLong
      exact stands_plain hDouble hMark (by decide) (.inr rfl)
        (.inl hLong)
    · exact stands_letter hDouble rfl
  split
  · subst c
    exact stands_letter hDouble rfl
  split
  · subst c
    exact stands_letter hDouble rfl
  split
  · subst c
    exact stands_letter hDouble rfl
  split
  · rename_i hLine _ _ hPlain hContent
    exact stands_plain hDouble hMark hPlain (.inl hContent)
      (.inr hLine)
  · exact stands_control hDouble ‹_›

------------------------------------------------------------
-- Whole Texts
------------------------------------------------------------

/- What is written with escapes is found again. -/
theorem cut_escape
    {f : Form}
    (hDouble : f.quote = .double)
    (text : List Char)
    {n : Nat}
    (hFew : n ≤ f.maxMarks)
    {rest : List Char}
    (hRest : rest.head? ≠ some '"') :
    f.cut (List.replicate n '"' ++
        (escape f n text ++ (f.delimiter ++ rest))) =
      some (List.replicate n '"' ++ escape f n text, rest) := by
  have hQuote : f.quote.mark = '"' := by
    rw [hDouble]
    rfl
  induction text generalizing n with
  | nil =>
      rw [← hQuote] at hRest ⊢
      rw [escape, List.append_nil]
      exact cut_end hFew hRest
  | cons c cs ih =>
      -- A piece ends the row of quotes that stand before it.
      have hStep (piece : List Char)
          (hPiece : f.Passes piece) :
          f.cut (List.replicate n '"' ++
              (piece ++ escape f 0 cs ++
                (f.delimiter ++ rest))) =
            some (List.replicate n '"' ++
              (piece ++ escape f 0 cs), rest) := by
        have hCs := ih (Nat.zero_le _)
        rw [List.replicate_zero, List.nil_append] at hCs
        have hMarks := hPiece.cut_marks hFew
          (escape f 0 cs ++ (f.delimiter ++ rest))
        rw [hQuote, hCs] at hMarks
        rw [List.append_assoc piece, hMarks]
        simp [Quote.keepAll]
      by_cases hc : c = '"'
      · subst hc
        by_cases hMore : n < f.maxMarks
        · have hNext := ih hMore
          rw [escape, if_pos rfl, if_pos hMore]
          rw [← replicate_append_cons, ← replicate_append_cons]
            at hNext
          exact hNext
        · rw [escape, if_pos rfl, if_neg hMore]
          exact hStep ['\\', '"']
            (stands_letter hDouble rfl).passes
      · rw [escape, if_neg hc]
        exact hStep (escapeChar f c)
          (stands_escapeChar hDouble hc).passes

/- What is written as it is between quotes is found again. -/
theorem cut_raw
    {f : Form}
    (hSingle : f.quote = .single)
    (text : List Char)
    (hAdmits : ∀ c ∈ text, f.Admits c)
    {n : Nat}
    (hFew : n ≤ f.maxMarks)
    (hOccurs : ¬ Text.Occurs
      (List.replicate (f.maxMarks + 1) f.quote.mark)
      (List.replicate n f.quote.mark ++ text))
    {rest : List Char}
    (hRest : rest.head? ≠ some f.quote.mark) :
    f.cut (List.replicate n f.quote.mark ++
        (text ++ (f.delimiter ++ rest))) =
      some (List.replicate n f.quote.mark ++ text, rest) := by
  induction text generalizing n with
  | nil =>
      rw [List.append_nil]
      exact cut_end hFew hRest
  | cons c cs ih =>
      rw [List.forall_mem_cons] at hAdmits
      by_cases hc : c = f.quote.mark
      · subst hc
        rw [replicate_append_cons] at hOccurs
        -- One quote more is not one too many.
        have hMore : n + 1 ≤ f.maxMarks := by
          refine Nat.lt_of_le_of_ne hFew (fun hFull => ?_)
          refine hOccurs (Text.occurs_iff.mpr ⟨[], cs, ?_⟩)
          rw [hFull]
          rfl
        have hNext := ih hAdmits.2 hMore hOccurs
        rw [← replicate_append_cons, ← replicate_append_cons]
          at hNext
        exact hNext
      · have hInert : f.quote.IsInert c := by
          refine ⟨hc, fun hEscapes => ?_⟩
          rw [hSingle] at hEscapes
          cases hEscapes.1
        have hLater : ¬ Text.Occurs
            (List.replicate (f.maxMarks + 1) f.quote.mark)
            cs := by
          intro hIn
          rcases Text.occurs_iff.mp hIn with
            ⟨before, after, hSplit⟩
          refine hOccurs (Text.occurs_iff.mpr
            ⟨List.replicate n f.quote.mark ++ c :: before,
              after, ?_⟩)
          rw [hSplit]
          simp
        have hCs := ih hAdmits.2 (Nat.zero_le _) hLater
        have hPiece := passes_inert hInert hAdmits.1
        have hMarks := hPiece.cut_marks hFew
          (cs ++ (f.delimiter ++ rest))
        rw [List.replicate_zero, List.nil_append] at hCs
        rw [hCs] at hMarks
        refine hMarks.trans ?_
        simp [Quote.keepAll]

end Form

/- Escapes are resolved to what was written. -/
theorem unescape_escape
    {f : Form}
    (hDouble : f.quote = .double)
    (n : Nat)
    (text : List Char) :
    unescape .nothing (escape f n text) = some text := by
  induction text generalizing n with
  | nil =>
      rfl
  | cons c cs ih =>
      by_cases hc : c = '"'
      · subst hc
        by_cases hMore : n < f.maxMarks
        · rw [escape, if_pos rfl, if_pos hMore,
            unescape_plain (by decide) (.inl (by decide)), ih]
          rfl
        · rw [escape, if_pos rfl, if_neg hMore,
            unescape_letter rfl, ih]
          rfl
      · rw [escape, if_neg hc,
          (Form.stands_escapeChar hDouble hc).meaning, ih]
        rfl

------------------------------------------------------------
-- Characters Of Escapes
------------------------------------------------------------

/-
  A character of an escape can stand between quotes; newlines
  are the only ones that stand on many lines.
-/
theorem isContent_of_mem_escapeChar
    {f : Form}
    {c x : Char}
    (hx : x ∈ escapeChar f c) :
    IsContent x ∨ (x = '\n' ∧ c = '\n') := by
  have hLetter (d : Char)
      (hContent : IsContent d)
      (hIn : x ∈ ['\\', d]) :
      IsContent x := by
    rcases List.mem_cons.mp hIn with rfl | hIn
    · decide
    · rwa [List.mem_singleton.mp hIn]
  unfold escapeChar at hx
  split at hx
  · exact .inl (hLetter 'b' (by decide) hx)
  split at hx
  · exact .inl (hLetter 't' (by decide) hx)
  split at hx
  · split at hx
    · exact .inr ⟨List.mem_singleton.mp hx, ‹_›⟩
    · exact .inl (hLetter 'n' (by decide) hx)
  split at hx
  · exact .inl (hLetter 'f' (by decide) hx)
  split at hx
  · exact .inl (hLetter 'r' (by decide) hx)
  split at hx
  · exact .inl (hLetter '\\' (by decide) hx)
  split at hx
  · rename_i hContent
    rw [List.mem_singleton.mp hx]
    exact .inl hContent
  · rename_i hControl
    have hSpelling :
        escapeControl c = ['\\', 'u'] ++ controlDigits c :=
      rfl
    rw [hSpelling, List.mem_append] at hx
    rcases hx with hFront | hDigit
    · exact .inl (hLetter 'u' (by decide) hFront)
    · exact .inl ((controlDigits_spec hControl).2.2 x hDigit).2

theorem isContent_of_mem_escape
    {f : Form}
    {n : Nat}
    {text : List Char}
    {x : Char}
    (hx : x ∈ escape f n text) :
    IsContent x ∨ (x = '\n' ∧ '\n' ∈ text) := by
  have hMark : IsContent '"' := by
    decide
  have hEscape : IsContent '\\' := by
    decide
  induction text generalizing n with
  | nil =>
      cases hx
  | cons c cs ih =>
      have hLater (m : Nat) (hIn : x ∈ escape f m cs) :
          IsContent x ∨ (x = '\n' ∧ '\n' ∈ c :: cs) :=
        (ih hIn).imp_right
          (And.imp_right (List.mem_cons_of_mem c))
      unfold escape at hx
      split at hx
      · split at hx
        · rcases List.mem_cons.mp hx with rfl | hIn
          · exact .inl hMark
          · exact hLater _ hIn
        · rcases List.mem_cons.mp hx with rfl | hIn
          · exact .inl hEscape
          rcases List.mem_cons.mp hIn with rfl | hIn
          · exact .inl hMark
          · exact hLater _ hIn
      · rcases List.mem_append.mp hx with hFirst | hIn
        · refine (isContent_of_mem_escapeChar hFirst).imp_right ?_
          rintro ⟨hLine, rfl⟩
          exact ⟨hLine, List.mem_cons_self⟩
        · exact hLater _ hIn

end Toml

end Palimpsest
