import Mathlib.Data.List.TakeDrop
import Palimpsest.Proofs.Toml.Quote
import Palimpsest.Toml.Reader

/-
  Texts and names are read as they were spelled.

  The form that is chosen for a text is one in which it can be
  written, and in such a form it is read back, whatever stands
  behind it.  A spelling has no characters but those that can
  stand in a document.

  Main declarations:
    * `Toml.Form.Fits`
    * `Toml.readQuoted_spell`
    * `Toml.readQuoted_spellText`
    * `Toml.readName_spellName`
    * `Toml.isRaw_spellText`
    * `Toml.isRaw_spellName`
-/

namespace Palimpsest

namespace Toml

------------------------------------------------------------
-- Forms That Fit
------------------------------------------------------------

namespace Form

/-
  A text that can be written in a form.  Any text can be
  written between double quotes.
-/
def Fits
    (f : Form)
    (text : List Char) : Prop :=
  f.quote = .single →
    IsRaw text ∧ (∀ c ∈ text, f.Admits c) ∧
      ¬ Text.Occurs
        (List.replicate (f.maxMarks + 1) f.quote.mark) text

theorem fits_of_double
    {f : Form}
    (hDouble : f.quote = .double)
    (text : List Char) :
    f.Fits text := by
  intro hSingle
  rw [hDouble] at hSingle
  cases hSingle

theorem fits_short_single
    {text : List Char}
    (hRaw : IsRaw text)
    (hMark : '\'' ∉ text)
    (hLine : '\n' ∉ text) :
    (Form.short .single).Fits text := by
  refine fun _ => ⟨hRaw, fun c hc => .inr ?_, fun hOccurs => ?_⟩
  · rintro rfl
    exact hLine hc
  · rcases Text.occurs_iff.mp hOccurs with
      ⟨before, after, rfl⟩
    exact hMark (by simp [maxMarks, IsLong, quote, Quote.mark])

theorem fits_long_single
    {text : List Char}
    (hRaw : IsRaw text)
    (hFence : ¬ HasFence .single text) :
    (Form.long .single).Fits text :=
  fun _ => ⟨hRaw, fun _ _ => .inl trivial, hFence⟩

/- A text fits the form in which it is written. -/
theorem fits_ofText (text : List Char) :
    (ofText text).Fits text := by
  unfold ofText
  split
  · exact fits_of_double rfl text
  split
  · rename_i _ hSingle
    exact fits_short_single hSingle.1 hSingle.2.1 hSingle.2.2
  split
  · exact fits_of_double rfl text
  split
  · rename_i _ _ _ hSingle
    exact fits_long_single hSingle.1 hSingle.2
  split
  · exact fits_of_double rfl text
  · exact fits_of_double rfl text

/- A name fits the form in which it is written. -/
theorem fits_ofName (name : List Char) :
    (ofName name).Fits name := by
  unfold ofName
  split
  · exact fits_of_double rfl name
  split
  · rename_i _ hSingle
    exact fits_short_single hSingle.1 hSingle.2.1 hSingle.2.2
  · exact fits_of_double rfl name

/- A name is written on one line. -/
theorem ofName_eq_short (name : List Char) :
    ofName name = .short (ofName name).quote := by
  unfold ofName
  split
  · rfl
  split
  · rfl
  · rfl

------------------------------------------------------------
-- Reading What Fits
------------------------------------------------------------

/- What was written in a form is found again. -/
theorem cut_body
    {f : Form}
    {text : List Char}
    (hFits : f.Fits text)
    {rest : List Char}
    (hRest : rest.head? ≠ some f.quote.mark) :
    f.cut (f.body text ++ (f.delimiter ++ rest)) =
      some (f.body text, rest) := by
  unfold body
  cases hQuote : f.quote with
  | double =>
      rw [hQuote] at hRest
      exact cut_escape hQuote text (Nat.zero_le _) hRest
  | single =>
      rcases hFits hQuote with ⟨_, hAdmits, hOccurs⟩
      exact cut_raw hQuote text hAdmits (Nat.zero_le _) hOccurs
        hRest

/- What was written in a form is resolved to the text. -/
theorem resolve_body
    {f : Form}
    {text : List Char}
    (hFits : f.Fits text) :
    f.quote.resolve (f.body text) = some text := by
  unfold body Quote.resolve
  cases hQuote : f.quote with
  | double =>
      exact unescape_escape hQuote 0 text
  | single =>
      exact if_pos (hFits hQuote).1

/- What is cut out and resolved is the text. -/
theorem finish_cut_body
    {f : Form}
    {text : List Char}
    (hFits : f.Fits text)
    {rest : List Char}
    (hRest : rest.head? ≠ some f.quote.mark) :
    f.quote.finish
        (f.cut (f.body text ++ (f.delimiter ++ rest))) =
      some (String.ofList text, rest) := by
  rw [cut_body hFits hRest]
  exact congrArg (Option.map _) (resolve_body hFits)

/- The characters that are written in a form. -/
theorem isContent_of_mem_body
    {f : Form}
    {text : List Char}
    (hFits : f.Fits text)
    {x : Char}
    (hx : x ∈ f.body text) :
    IsContent x ∨ (x = '\n' ∧ '\n' ∈ text) := by
  unfold body at hx
  cases hQuote : f.quote with
  | double =>
      rw [hQuote] at hx
      exact isContent_of_mem_escape hx
  | single =>
      rw [hQuote] at hx
      refine ((hFits hQuote).1 x hx).imp_right ?_
      rintro rfl
      exact ⟨rfl, hx⟩

end Form

------------------------------------------------------------
-- Reading With Quotes
------------------------------------------------------------

/- A short text is not taken for a long one. -/
theorem readQuoted_short
    {q : Quote}
    {cs found rest : List Char}
    (hCut : q.cutShort cs = some (found, rest))
    (hRest : rest.head? ≠ some q.mark) :
    readQuoted (q.mark :: cs) = q.readShort cs := by
  -- Three quotes in a row would be an empty text and a quote.
  have hNot (more : List Char) :
      cs ≠ q.mark :: q.mark :: more := by
    rintro rfl
    rw [Quote.cutShort.eq_def] at hCut
    dsimp only at hCut
    rw [if_neg q.mark_ne_newline, if_pos rfl] at hCut
    cases hCut
    exact hRest rfl
  cases q with
  | double =>
      exact readQuoted.eq_2 cs hNot
  | single =>
      exact readQuoted.eq_4 cs hNot

/- A long text is read after its three quotes. -/
theorem readQuoted_long
    (q : Quote)
    (cs : List Char) :
    readQuoted (q.fence ++ cs) = q.readLong cs := by
  cases q with
  | double =>
      exact readQuoted.eq_1 cs
  | single =>
      exact readQuoted.eq_3 cs

/- Only a newline at the start is dropped. -/
theorem dropFirstNewline_of_ne
    {cs : List Char}
    (hLine : cs.head? ≠ some '\n') :
    Quote.dropFirstNewline cs = cs := by
  unfold Quote.dropFirstNewline
  split
  · exact absurd rfl hLine
  · rfl

/- The newline after the opening quotes is dropped again. -/
theorem Form.dropFirstNewline_opening
    {q : Quote}
    {text : List Char}
    (hFits : (Form.long q).Fits text)
    (rest : List Char) :
    Quote.dropFirstNewline
        ((Form.long q).opening text ++
          ((Form.long q).body text ++ (q.fence ++ rest))) =
      (Form.long q).body text ++ (q.fence ++ rest) := by
  by_cases hLine : '\n' ∈ text
  · rw [opening, if_pos ⟨trivial, hLine⟩]
    rfl
  · rw [opening, if_neg (fun h => hLine h.2)]
    refine dropFirstNewline_of_ne (fun hHead => ?_)
    cases hBody : (Form.long q).body text with
    | nil =>
        rw [hBody] at hHead
        exact q.mark_ne_newline (Option.some.inj hHead)
    | cons c cs =>
        rw [hBody] at hHead
        have hc : c = '\n' :=
          Option.some.inj hHead
        have hIn : '\n' ∈ (Form.long q).body text := by
          rw [hBody, hc]
          exact List.mem_cons_self
        rcases isContent_of_mem_body hFits hIn with
          hContent | hText
        · exact absurd hContent (by decide)
        · exact hLine hText.2

/-
  A text is read as it was spelled, unless its quote follows.
-/
theorem readQuoted_spell
    {f : Form}
    {text : List Char}
    (hFits : f.Fits text)
    {rest : List Char}
    (hRest : rest.head? ≠ some f.quote.mark) :
    readQuoted (f.spell text ++ rest) =
      some (String.ofList text, rest) := by
  unfold Form.spell
  cases f with
  | short q =>
      have hCut := Form.cut_body hFits hRest
      have hFinish := Form.finish_cut_body hFits hRest
      have hNone : (Form.short q).opening text = [] :=
        if_neg (fun h => h.1)
      rw [hNone, List.append_nil, List.append_assoc,
        List.append_assoc]
      exact (readQuoted_short hCut hRest).trans hFinish
  | long q =>
      have hFinish := Form.finish_cut_body hFits hRest
      have hDrop := Form.dropFirstNewline_opening hFits rest
      simp only [List.append_assoc]
      refine (readQuoted_long q _).trans ?_
      unfold Quote.readLong
      exact (congrArg (fun cs => q.finish (q.cutLong cs))
        hDrop).trans hFinish

/- A spelling starts with a quote. -/
theorem Form.spell_eq_cons
    (f : Form)
    (text : List Char) :
    ∃ cs, f.spell text = f.quote.mark :: cs := by
  cases f with
  | short q =>
      exact ⟨_, rfl⟩
  | long q =>
      exact ⟨_, rfl⟩

/- A spelling has only characters of documents. -/
theorem Form.isRaw_spell
    {f : Form}
    {text : List Char}
    (hFits : f.Fits text) :
    IsRaw (f.spell text) := by
  have hMark (q : Quote) : IsContent q.mark := by
    cases q <;> decide
  have hDelimiter : IsRaw f.delimiter := by
    intro c hc
    cases f with
    | short q =>
        rw [List.mem_singleton.mp hc]
        exact .inl (hMark q)
    | long q =>
        rw [List.eq_of_mem_replicate hc]
        exact .inl (hMark q)
  have hOpening : IsRaw (f.opening text) := by
    intro c hc
    unfold opening at hc
    split at hc
    · exact .inr (List.mem_singleton.mp hc)
    · cases hc
  intro c hc
  unfold spell at hc
  simp only [List.mem_append] at hc
  rcases hc with ((hc | hc) | hc) | hc
  · exact hDelimiter c hc
  · exact hOpening c hc
  · exact (isContent_of_mem_body hFits hc).imp_right And.left
  · exact hDelimiter c hc

------------------------------------------------------------
-- Texts
------------------------------------------------------------

/- A text is read as it was spelled, up to the line's end. -/
theorem readQuoted_spellText
    (text : String)
    (rest : List Char) :
    readQuoted (spellText text ++ '\n' :: rest) =
      some (text, '\n' :: rest) := by
  have hRest :
      ('\n' :: rest).head? ≠
        some (Form.ofText text.toList).quote.mark :=
    fun hHead =>
      Quote.mark_ne_newline _ (Option.some.inj hHead).symm
  have hRead :=
    readQuoted_spell (Form.fits_ofText text.toList) hRest
  rw [String.ofList_toList] at hRead
  exact hRead

theorem isRaw_spellText (text : String) :
    IsRaw (spellText text) :=
  Form.isRaw_spell (Form.fits_ofText text.toList)

------------------------------------------------------------
-- Names
------------------------------------------------------------

/- A character that may stand behind a name. -/
def EndsName (c : Char) : Prop :=
  c = ' ' ∨ c = ']'

/- A name without quotes is read up to its end. -/
theorem readName_bare
    {name : List Char}
    (hBare : IsBareName name)
    {c : Char}
    (hEnd : EndsName c)
    (rest : List Char) :
    readName (name ++ c :: rest) =
      some (String.ofList name, c :: rest) := by
  rcases hBare with ⟨hNonempty, hAll⟩
  have hc : ¬ IsBare c := by
    rcases hEnd with rfl | rfl <;> decide
  have hSpan :
      (name ++ c :: rest).span (fun c => decide (IsBare c)) =
        (name, c :: rest) := by
    rw [List.span_eq_takeWhile_dropWhile,
      List.takeWhile_append_of_pos
        (fun d hd => decide_eq_true (hAll d hd)),
      List.dropWhile_append_of_pos
        (fun d hd => decide_eq_true (hAll d hd)),
      List.takeWhile_cons_of_neg (by simpa using hc),
      List.dropWhile_cons_of_neg (by simpa using hc),
      List.append_nil]
  cases name with
  | nil =>
      exact absurd rfl hNonempty
  | cons d ds =>
      have hd : IsBare d :=
        hAll d List.mem_cons_self
      have hQuoted (q : Char) (hq : ¬ IsBare q)
          (cs : List Char) :
          d :: ds ++ c :: rest = q :: cs → False := by
        rintro hEq
        cases hEq
        exact hq hd
      rw [readName.eq_3 _ (hQuoted _ (by decide))
        (hQuoted _ (by decide)), hSpan]

/- A quoted name is read as it was spelled. -/
theorem readName_quoted
    {q : Quote}
    {name : List Char}
    (hFits : (Form.short q).Fits name)
    {rest : List Char}
    (hRest : rest.head? ≠ some q.mark) :
    readName ((Form.short q).spell name ++ rest) =
      some (String.ofList name, rest) := by
  have hFinish := Form.finish_cut_body hFits hRest
  have hNone : (Form.short q).opening name = [] :=
    if_neg (fun h => h.1)
  unfold Form.spell
  rw [hNone, List.append_nil, List.append_assoc,
    List.append_assoc]
  cases q with
  | double =>
      exact (readName.eq_1 _).trans hFinish
  | single =>
      exact (readName.eq_2 _).trans hFinish

/- A name is read as it was spelled, up to its end. -/
theorem readName_spellName
    (name : String)
    {c : Char}
    (hEnd : EndsName c)
    (rest : List Char) :
    readName (spellName name ++ c :: rest) =
      some (name, c :: rest) := by
  unfold spellName
  split
  · rename_i hBare
    rw [readName_bare hBare hEnd, String.ofList_toList]
  · have hFits := Form.fits_ofName name.toList
    rw [Form.ofName_eq_short] at hFits ⊢
    have hRest : (c :: rest).head? ≠
        some (Form.ofName name.toList).quote.mark := by
      rw [List.head?_cons]
      cases (Form.ofName name.toList).quote <;>
        rcases hEnd with rfl | rfl <;> decide
    rw [readName_quoted hFits hRest, String.ofList_toList]

/- A spelled name starts with a quote or is bare. -/
theorem spellName_eq_cons (name : String) :
    ∃ c cs, spellName name = c :: cs ∧
      (IsBare c ∨ ∃ q : Quote, c = q.mark) := by
  unfold spellName
  split
  · rename_i hBare
    cases hName : name.toList with
    | nil =>
        exact absurd hName hBare.1
    | cons c cs =>
        refine ⟨c, cs, rfl, .inl (hBare.2 c ?_)⟩
        rw [hName]
        exact List.mem_cons_self
  · rcases (Form.ofName name.toList).spell_eq_cons
      name.toList with ⟨cs, hSpell⟩
    exact ⟨_, cs, hSpell, .inr ⟨_, rfl⟩⟩

/- Bare characters can stand in documents. -/
theorem isContent_of_isBare
    {c : Char}
    (hBare : IsBare c) :
    IsContent c := by
  rcases hBare with hAlphanum | rfl | rfl
  · have hCases :
        (decide (65 ≤ c.val ∧ c.val ≤ 90) ||
          (decide (97 ≤ c.val) && decide (c.val ≤ 122)) ||
          (decide (48 ≤ c.val) && decide (c.val ≤ 57))) =
            true :=
      hAlphanum
    simp only [UInt32.le_iff_toNat_le, Bool.or_eq_true,
      Bool.and_eq_true, decide_eq_true_eq,
      UInt32.reduceToNat] at hCases
    right
    unfold Char.toNat
    omega
  · decide
  · decide

theorem isRaw_spellName (name : String) :
    IsRaw (spellName name) := by
  unfold spellName
  split
  · rename_i hBare
    exact fun c hc => .inl (isContent_of_isBare (hBare.2 c hc))
  · exact Form.isRaw_spell (Form.fits_ofName name.toList)

end Toml

end Palimpsest
