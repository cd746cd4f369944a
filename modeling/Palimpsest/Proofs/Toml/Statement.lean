import Palimpsest.Proofs.Toml.Spelling

/-
  A document that is written line by line is read statement by
  statement.

  A line with a spelled name and a spelled value is read as
  that pair, a line with a spelled name in brackets as that
  header.  Lines in a row are read as their statements in a
  row.

  Main declarations:
    * `Toml.Spells`
    * `Toml.LineOf`
    * `Toml.Statement.plain`
    * `Toml.lineOf_pair`
    * `Toml.lineOf_header`
    * `Toml.Cell`
    * `Toml.readStatements_flatten`
    * `Toml.statements?_of_lines`
-/

namespace Palimpsest

namespace Toml

------------------------------------------------------------
-- Keys
------------------------------------------------------------

/- A text that does not start with a blank is left as it is. -/
theorem skipBlanks_cons
    {c : Char}
    (hSpace : ¬ IsSpace c)
    (cs : List Char) :
    skipBlanks (c :: cs) = c :: cs :=
  List.dropWhile_cons_of_neg (by simpa using hSpace)

/- A blank at the start is skipped. -/
theorem skipBlanks_blank (cs : List Char) :
    skipBlanks (' ' :: cs) = skipBlanks cs :=
  rfl

/- The first character of a spelled name. -/
theorem spellName_first (name : String) :
    ∃ c cs, spellName name = c :: cs ∧
      ¬ IsSpace c ∧ c ≠ '\n' ∧ c ≠ '#' ∧ c ≠ '[' := by
  rcases spellName_eq_cons name with
    ⟨c, cs, hSpell, hBare | ⟨q, rfl⟩⟩
  · have hNot (d : Char) (hd : ¬ IsBare d) : c ≠ d := by
      rintro rfl
      exact hd hBare
    refine ⟨c, cs, hSpell, ?_, hNot _ (by decide),
      hNot _ (by decide), hNot _ (by decide)⟩
    rintro (h | h)
    · exact hNot ' ' (by decide) h
    · exact hNot '\t' (by decide) h
  · refine ⟨q.mark, cs, hSpell, ?_⟩
    cases q <;> decide

/- A spelled name is read as a key without enclosing tables. -/
theorem readKey_spellName
    (name : String)
    {c : Char}
    (hEnd : EndsName c)
    {rest cs : List Char}
    {d : Char}
    (hNext : skipBlanks (c :: rest) = d :: cs)
    (hDot : d ≠ '.') :
    readKey (spellName name ++ c :: rest) =
      some (⟨[], name⟩, d :: cs) := by
  have hStart :
      skipBlanks (spellName name ++ c :: rest) =
        spellName name ++ c :: rest := by
    rcases spellName_first name with ⟨x, xs, hSpell, hSpace, _⟩
    rw [hSpell]
    exact skipBlanks_cons hSpace _
  unfold readKey maxKeyParts
  rw [readKeyUpTo.eq_2, hStart, readName_spellName name hEnd]
  simp only [Option.bind_eq_bind, Option.bind_some, hNext]
  split
  · rename_i hEq
    cases hEq
    exact absurd rfl hDot
  · rfl

------------------------------------------------------------
-- Values
------------------------------------------------------------

/-
  A spelling that is read as a value, up to the end of its
  line.
-/
structure Spells
    (spelling : List Char)
    (value : Toml) : Prop where
  starts : ∃ c cs, spelling = c :: cs ∧ ¬ IsSpace c
  reads : ∀ rest,
    readValue (spelling ++ '\n' :: rest) =
      some (value, '\n' :: rest)

/- A value that opens neither an array nor a table. -/
theorem readValue_flat
    {c : Char}
    {cs : List Char}
    (hArray : c ≠ '[')
    (hTable : c ≠ '{') :
    readValue (c :: cs) = readFlat (c :: cs) := by
  refine readNested.eq_3 _ _ ?_ ?_
  · rintro _ _ _ hEq
    cases hEq
    exact hArray rfl
  · rintro _ _ _ hEq
    cases hEq
    exact hTable rfl

/- A spelled text is read as that text. -/
theorem spells_text (text : String) :
    Spells (spellText text) (.string text) := by
  rcases (Form.ofText text.toList).spell_eq_cons text.toList
    with ⟨cs, hSpell⟩
  have hMark (q : Quote) :
      ¬ IsSpace q.mark ∧ q.mark ≠ '[' ∧ q.mark ≠ '{' := by
    cases q <;> decide
  refine ⟨⟨_, cs, hSpell, (hMark _).1⟩, fun rest => ?_⟩
  have hRead := readQuoted_spellText text rest
  have hSpelling : spellText text =
      (Form.ofText text.toList).quote.mark :: cs :=
    hSpell
  rw [hSpelling, List.cons_append] at hRead ⊢
  rw [readValue_flat (hMark _).2.1 (hMark _).2.2, readFlat,
    hRead]
  rfl

/- Characters that make one unquoted value. -/
def IsWord (cs : List Char) : Prop :=
  ∀ c ∈ cs, ¬ EndsWord c

instance (cs : List Char) : Decidable (IsWord cs) :=
  List.decidableBAll _ _

/- A word is cut off at the end of its line. -/
theorem cutWord_append
    {word : List Char}
    (hWord : IsWord word)
    (rest : List Char) :
    cutWord (word ++ '\n' :: rest) = (word, '\n' :: rest) := by
  unfold cutWord
  rw [List.span_eq_takeWhile_dropWhile,
    List.takeWhile_append_of_pos
      (fun c hc => decide_eq_true (hWord c hc)),
    List.dropWhile_append_of_pos
      (fun c hc => decide_eq_true (hWord c hc))]
  simp [EndsWord]

/- A text that does not start with a quote is not quoted. -/
theorem readQuoted_eq_none
    {c : Char}
    {cs : List Char}
    (hDouble : c ≠ '"')
    (hSingle : c ≠ '\'') :
    readQuoted (c :: cs) = none := by
  unfold readQuoted
  split
  · rename_i hEq
    exact absurd (List.cons.inj hEq).1 hDouble
  · rename_i hEq
    exact absurd (List.cons.inj hEq).1 hDouble
  · rename_i hEq
    exact absurd (List.cons.inj hEq).1 hSingle
  · rename_i hEq
    exact absurd (List.cons.inj hEq).1 hSingle
  · rfl

/-
  A character with which an unquoted value can start that is
  no array and no table.
-/
def StartsWord (c : Char) : Prop :=
  c ∉ ['"', '\'', '[', '{'] ∧ ¬ IsSpace c

instance (c : Char) : Decidable (StartsWord c) := by
  unfold StartsWord
  infer_instance

/- A word is read as the value that it stands for. -/
theorem spells_word
    {c : Char}
    {cs : List Char}
    (hFirst : StartsWord c)
    (hWord : IsWord (c :: cs))
    {value : Toml}
    (hValue : ofWord? (c :: cs) = some value) :
    Spells (c :: cs) value := by
  rcases hFirst with ⟨hPlain, hSpace⟩
  refine ⟨⟨c, cs, rfl, hSpace⟩, fun rest => ?_⟩
  simp only [List.mem_cons, List.not_mem_nil, or_false,
    not_or] at hPlain
  rcases hPlain with ⟨hDouble, hSingle, hArray, hTable⟩
  have hCut := cutWord_append hWord rest
  have hMoment :
      readSpacedMoment (c :: cs ++ '\n' :: rest) = none := by
    unfold readSpacedMoment
    rw [hCut]
    rfl
  have hRead :
      readWord (c :: cs ++ '\n' :: rest) =
        some (value, '\n' :: rest) := by
    unfold readWord
    rw [hMoment, hCut]
    simp only [Option.none_or, hValue, Option.map_some]
  rw [List.cons_append] at hRead ⊢
  rw [readValue_flat hArray hTable, readFlat,
    readQuoted_eq_none hDouble hSingle, hRead]
  rfl

------------------------------------------------------------
-- Lines
------------------------------------------------------------

/-
  A line that is read as a statement, with the blank lines in
  front of it and whatever lines follow.
-/
def LineOf
    (line : List Char)
    (s : Statement) : Prop :=
  ∀ rest, ∃ cs more,
    skipTrivia (line ++ rest) = some cs ∧ cs ≠ [] ∧
      readStatement cs = some (s, more) ∧
        endLine more = some rest

/- A solid character is where a statement starts. -/
theorem skipTrivia_cons
    {c : Char}
    (hSpace : ¬ IsSpace c)
    (hLine : c ≠ '\n')
    (hComment : c ≠ '#')
    (cs : List Char) :
    skipTrivia (c :: cs) = some (c :: cs) := by
  rw [skipTrivia.eq_2, if_neg (by simp [hSpace, hLine]),
    if_neg hComment]

/- A name and its value, as a statement. -/
def Statement.plain (entry : String × Toml) : Statement :=
  .pair ⟨[], entry.1⟩ entry.2

/- A spelled name and a spelled value make a line. -/
theorem lineOf_pair
    (name : String)
    {spelling : List Char}
    {value : Toml}
    (hSpells : Spells spelling value) :
    LineOf (entryLine name spelling)
      (.plain (name, value)) := by
  intro rest
  have hKey :
      readKey (spellName name ++ ' ' :: '=' :: ' ' ::
          (spelling ++ '\n' :: rest)) =
        some (⟨[], name⟩,
          '=' :: ' ' :: (spelling ++ '\n' :: rest)) :=
    readKey_spellName name (.inl rfl) rfl (by decide)
  have hText :
      entryLine name spelling ++ rest =
        spellName name ++ ' ' :: '=' :: ' ' ::
          (spelling ++ '\n' :: rest) := by
    simp [entryLine]
  have hBlank :
      skipBlanks (' ' :: (spelling ++ '\n' :: rest)) =
        spelling ++ '\n' :: rest := by
    rcases hSpells.starts with ⟨c, cs, rfl, hSpace⟩
    rw [skipBlanks_blank]
    exact skipBlanks_cons hSpace _
  have hPair :
      readPair readValue
          (spellName name ++ ' ' :: '=' :: ' ' ::
            (spelling ++ '\n' :: rest)) =
        some ((⟨[], name⟩, value), '\n' :: rest) := by
    unfold readPair
    rw [hKey]
    simp only [Option.bind_eq_bind, Option.bind_some, hBlank,
      hSpells.reads]
  rcases spellName_first name with
    ⟨c, cs, hSpell, hSpace, hLine, hComment, hBracket⟩
  refine ⟨spellName name ++ ' ' :: '=' :: ' ' ::
      (spelling ++ '\n' :: rest), '\n' :: rest, ?_, ?_, ?_,
    rfl⟩
  · rw [hText, hSpell]
    exact skipTrivia_cons hSpace hLine hComment _
  · rw [hSpell]
    exact List.cons_ne_nil _ _
  · rw [hSpell] at hPair ⊢
    rw [List.cons_append] at hPair ⊢
    rw [readStatement.eq_3, hPair]
    · rfl
    · exact fun _ hEq => hBracket (List.cons.inj hEq).1
    · exact fun _ hEq => hBracket (List.cons.inj hEq).1

/- A spelled name in brackets makes a line, after a blank one. -/
theorem lineOf_header (name : String) :
    LineOf ('\n' :: headerLine name)
      (.openTable ⟨[], name⟩) := by
  intro rest
  have hKey :
      readKey (spellName name ++ ']' :: '\n' :: rest) =
        some (⟨[], name⟩, ']' :: '\n' :: rest) :=
    readKey_spellName name (.inr rfl) rfl (by decide)
  refine ⟨'[' :: (spellName name ++ ']' :: '\n' :: rest),
    '\n' :: rest, ?_, List.cons_ne_nil _ _, ?_, rfl⟩
  · rw [headerLine, List.cons_append, List.cons_append,
      skipTrivia.eq_2, if_pos (.inr rfl), List.cons_append,
      List.append_assoc]
    exact skipTrivia_cons (by decide) (by decide) (by decide) _
  · rw [readStatement.eq_2, hKey]
    · rfl
    · intro cs hEq
      rcases spellName_first name with
        ⟨c, _, hSpell, _, _, _, hBracket⟩
      rw [hSpell] at hEq
      cases hEq
      exact hBracket rfl

------------------------------------------------------------
-- Entries With Spellings
------------------------------------------------------------

/- An entry, with the way in which its value is spelled. -/
structure Cell where
  name : String
  value : Toml
  spelling : List Char

namespace Cell

/- The entry itself. -/
def entry (e : Cell) : String × Toml :=
  (e.name, e.value)

/- The line on which the entry is written. -/
def line (e : Cell) : List Char :=
  entryLine e.name e.spelling

/- The value is spelled so that it is read back. -/
structure IsFaithful (e : Cell) : Prop where
  spells : Spells e.spelling e.value
  raw : IsRaw e.spelling

/- A name with a text. -/
def ofText (name text : String) : Cell :=
  ⟨name, .string text, spellText text⟩

theorem isFaithful_ofText (name text : String) :
    (ofText name text).IsFaithful :=
  ⟨spells_text text, isRaw_spellText text⟩

theorem IsFaithful.lineOf
    {e : Cell}
    (hFaithful : e.IsFaithful) :
    LineOf e.line (.plain e.entry) :=
  lineOf_pair e.name hFaithful.spells

theorem IsFaithful.isRaw_line
    {e : Cell}
    (hFaithful : e.IsFaithful) :
    IsRaw e.line := by
  have hEquals : IsRaw " = ".toList := by
    decide
  have hEnd : IsRaw ['\n'] := by
    decide
  unfold line entryLine
  refine List.forall_mem_append.mpr ⟨?_, hEnd⟩
  refine List.forall_mem_append.mpr ⟨?_, hFaithful.raw⟩
  exact List.forall_mem_append.mpr
    ⟨isRaw_spellName e.name, hEquals⟩

end Cell

theorem isRaw_headerLine (name : String) :
    IsRaw ('\n' :: headerLine name) := by
  have hStart : IsRaw ['\n', '['] := by
    decide
  have hEnd : IsRaw [']', '\n'] := by
    decide
  exact List.forall_mem_append.mpr
    ⟨List.forall_mem_append.mpr
      ⟨hStart, isRaw_spellName name⟩, hEnd⟩

------------------------------------------------------------
-- Documents
------------------------------------------------------------

/- Lines in a row are read as their statements in a row. -/
theorem readStatements_flatten
    {lines : List (List Char)}
    {statements : List Statement}
    (hLines : List.Forall₂ LineOf lines statements)
    {fuel : Nat}
    (hFuel : lines.length < fuel) :
    readStatements fuel lines.flatten = some statements := by
  induction hLines generalizing fuel with
  | nil =>
      cases fuel with
      | zero =>
          exact absurd hFuel (Nat.lt_irrefl 0)
      | succ fuel =>
          rfl
  | @cons line s lines statements hLine _ ih =>
      cases fuel with
      | zero =>
          exact absurd hFuel (Nat.not_lt_zero _)
      | succ fuel =>
          rcases hLine lines.flatten with
            ⟨cs, more, hSkip, hNonempty, hRead, hEnd⟩
          have hRest := ih (Nat.lt_of_succ_lt_succ hFuel)
          rw [List.flatten_cons, readStatements]
          simp only [hSkip, Option.bind_eq_bind,
            Option.bind_some]
          cases cs with
          | nil =>
              exact absurd rfl hNonempty
          | cons c cs =>
              simp only [hRead, Option.bind_some, hEnd, hRest]

/- There are no more lines than characters. -/
theorem length_le_of_lines
    {lines : List (List Char)}
    {statements : List Statement}
    (hLines : List.Forall₂ LineOf lines statements) :
    lines.length ≤ lines.flatten.length := by
  induction hLines with
  | nil =>
      exact Nat.le_refl 0
  | @cons line s lines statements hLine _ ih =>
      have hNonempty : line ≠ [] := by
        rintro rfl
        rcases hLine [] with ⟨cs, more, hSkip, hCs, _⟩
        cases hSkip
        exact hCs rfl
      have hPos := List.length_pos_iff.mpr hNonempty
      rw [List.flatten_cons, List.length_cons,
        List.length_append]
      omega

/- Characters of documents have no line ends to fold. -/
theorem foldLineEnds_of_isRaw
    {cs : List Char}
    (hRaw : IsRaw cs) :
    foldLineEnds cs = cs := by
  induction cs with
  | nil =>
      rfl
  | cons c cs ih =>
      have hReturn : c ≠ '\r' := by
        rintro rfl
        exact absurd (hRaw _ List.mem_cons_self) (by decide)
      rw [foldLineEnds.eq_3 _ _ (fun _ h _ => hReturn h),
        ih (fun d hd => hRaw d (List.mem_cons_of_mem c hd))]

/- A text without a mark at its start is left as it is. -/
theorem dropMark_of_ne
    {cs : List Char}
    (hMark : cs.head? ≠ some '\uFEFF') :
    dropMark cs = cs := by
  unfold dropMark
  split
  · exact absurd rfl hMark
  · rfl

/- A document that is written line by line is read so. -/
theorem statements?_of_lines
    {lines : List (List Char)}
    {statements : List Statement}
    (hLines : List.Forall₂ LineOf lines statements)
    (hRaw : IsRaw lines.flatten)
    (hMark : lines.flatten.head? ≠ some '\uFEFF') :
    statements? (String.ofList lines.flatten) =
      some statements := by
  unfold statements?
  rw [String.toList_ofList, dropMark_of_ne hMark,
    foldLineEnds_of_isRaw hRaw]
  exact readStatements_flatten hLines
    (Nat.lt_succ_of_le (length_le_of_lines hLines))

end Toml

end Palimpsest
