import Mathlib.Data.List.Forall2
import Palimpsest.Proofs.Table
import Palimpsest.Proofs.Toml.Statement
import Palimpsest.Toml.Document

/-
  The entries of a document with plain keys and one table.

  Entries with plain keys that are not repeated are added in
  order, first to the document itself and then to the table
  that a header opened.

  Main declarations:
    * `Toml.Document.performAll_plain`
    * `Toml.Document.performAll_inside`
    * `Toml.Document.performAll_table`
-/

namespace Palimpsest

namespace Toml

namespace Document

------------------------------------------------------------
-- Entries Of The Document
------------------------------------------------------------

/- The next of several fresh names is fresh. -/
theorem fresh_of_nodup
    {present entries : Entries}
    {name : String}
    {value : Toml}
    (hNodup :
      (Pairs.keys (present ++ (name, value) :: entries)).Nodup) :
    name ∉ Pairs.keys present := by
  unfold Pairs.keys at hNodup
  rw [List.map_append, List.nodup_append] at hNodup
  exact fun hIn =>
    hNodup.2.2 name hIn name List.mem_cons_self rfl

/- A fresh name is added at the end. -/
theorem addPair_plain
    {entries : Entries}
    {name : String}
    (hFresh : name ∉ Pairs.keys entries)
    (value : Toml) :
    Entries.addPair ⟨[], name⟩ value entries =
      some (entries ++ [(name, value)]) := by
  unfold Entries.addPair Entries.alter Entries.addEntry
  rw [if_pos (.inl rfl), if_neg hFresh]

/- Fresh names are added to the document in order. -/
theorem performAll_plain
    {present entries : Entries}
    (hNodup : (Pairs.keys (present ++ entries)).Nodup)
    (rest : List Statement) :
    performAll (entries.map Statement.plain ++ rest)
        ⟨present, []⟩ =
      performAll rest ⟨present ++ entries, []⟩ := by
  induction entries generalizing present with
  | nil =>
      rw [List.append_nil]
      rfl
  | cons entry entries ih =>
      rcases entry with ⟨name, value⟩
      have hFresh := fresh_of_nodup hNodup
      have hStep :
          perform ⟨present, []⟩ (.plain (name, value)) =
            some ⟨present ++ [(name, value)], []⟩ :=
        congrArg (Option.map _) (addPair_plain hFresh value)
      rw [List.append_cons] at hNodup ⊢
      rw [← ih hNodup, List.map_cons, List.cons_append,
        performAll, hStep]
      rfl

------------------------------------------------------------
-- Entries Of A Table
------------------------------------------------------------

variable {outer : Entries} {table : String}

/- A fresh header opens a table without entries. -/
theorem perform_openTable
    (hFresh : table ∉ Pairs.keys outer)
    (current : List String) :
    perform ⟨outer, current⟩ (.openTable ⟨[], table⟩) =
      some ⟨outer ++ [(table, .table .header [])],
        [table]⟩ := by
  unfold perform Entries.openTable Entries.alter
  dsimp only
  rw [Pairs.lookup_eq_none_iff.mpr hFresh]
  rfl

/- A fresh name is added to the table that is open. -/
theorem perform_inside
    (hTable : table ∉ Pairs.keys outer)
    {inner : Entries}
    {name : String}
    (hFresh : name ∉ Pairs.keys inner)
    (value : Toml) :
    perform
        ⟨outer ++ [(table, .table .header inner)], [table]⟩
        (.plain (name, value)) =
      some ⟨outer ++
          [(table, .table .header (inner ++ [(name, value)]))],
        [table]⟩ := by
  have hEnter : Entries.CanEnter false .header := by
    decide
  unfold perform Statement.plain Entries.addInside
    Entries.alter
  dsimp only
  rw [Pairs.lookup_append_last hTable]
  dsimp only
  rw [if_pos hEnter, Entries.alter, addPair_plain hFresh,
    Option.map_some, Pairs.insert_append_last hTable,
    Option.map_some]

/- Fresh names are added to the open table in order. -/
theorem performAll_inside
    (hTable : table ∉ Pairs.keys outer)
    {inner entries : Entries}
    (hNodup : (Pairs.keys (inner ++ entries)).Nodup) :
    performAll (entries.map Statement.plain)
        ⟨outer ++ [(table, .table .header inner)], [table]⟩ =
      some ⟨outer ++
          [(table, .table .header (inner ++ entries))],
        [table]⟩ := by
  induction entries generalizing inner with
  | nil =>
      rw [List.append_nil]
      rfl
  | cons entry entries ih =>
      rcases entry with ⟨name, value⟩
      have hFresh := fresh_of_nodup hNodup
      have hStep := perform_inside hTable hFresh value
      rw [List.append_cons inner] at hNodup ⊢
      rw [← ih hNodup, List.map_cons, performAll, hStep]
      rfl

/- A document of plain entries and one table with more. -/
theorem performAll_table
    {inner : Entries}
    (hOuter : (Pairs.keys outer).Nodup)
    (hTable : table ∉ Pairs.keys outer)
    (hInner : (Pairs.keys inner).Nodup) :
    performAll
        (outer.map Statement.plain ++
          .openTable ⟨[], table⟩ ::
            inner.map Statement.plain)
        empty =
      some ⟨outer ++ [(table, .table .header inner)],
        [table]⟩ := by
  have hFields (rest : List Statement) :
      performAll (outer.map Statement.plain ++ rest) empty =
        performAll rest ⟨outer, []⟩ :=
    @performAll_plain [] outer hOuter rest
  rw [hFields, performAll, perform_openTable hTable,
    Option.bind_some]
  exact performAll_inside hTable hInner

end Document

------------------------------------------------------------
-- Written Documents
------------------------------------------------------------

/-
  The text of entries and of one table with more entries: a
  line for each entry, and a header with a blank line before.
-/
def sheet
    (outer : List Cell)
    (table : String)
    (inner : List Cell) : List Char :=
  outer.flatMap Cell.line ++ '\n' :: headerLine table ++
    inner.flatMap Cell.line

/- The lines of entries are read as their statements. -/
theorem lineOf_cells
    {cells : List Cell}
    (hCells : ∀ e ∈ cells, e.IsFaithful) :
    List.Forall₂ LineOf (cells.map Cell.line)
      ((cells.map Cell.entry).map Statement.plain) := by
  induction cells with
  | nil =>
      exact .nil
  | cons e cells ih =>
      rw [List.forall_mem_cons] at hCells
      exact .cons hCells.1.lineOf (ih hCells.2)

/- No spelled name starts with a byte order mark. -/
theorem head?_sheet_ne
    (outer : List Cell)
    (table : String)
    (inner : List Cell) :
    (sheet outer table inner).head? ≠ some '\uFEFF' := by
  cases outer with
  | nil =>
      exact fun hHead => absurd (Option.some.inj hHead)
        (by decide)
  | cons e cells =>
      rcases spellName_eq_cons e.name with
        ⟨c, cs, hSpell, hFirst⟩
      have hc : c ≠ '\uFEFF' := by
        rcases hFirst with hBare | ⟨q, rfl⟩
        · rintro rfl
          exact absurd hBare (by decide)
        · cases q <;> decide
      unfold sheet
      rw [List.flatMap_cons, Cell.line, entryLine, hSpell]
      exact fun hHead => hc (Option.some.inj hHead)

theorem isRaw_sheet
    {outer inner : List Cell}
    (hOuter : ∀ e ∈ outer, e.IsFaithful)
    (hInner : ∀ e ∈ inner, e.IsFaithful)
    (table : String) :
    IsRaw (sheet outer table inner) := by
  have hLines {cells : List Cell}
      (hCells : ∀ e ∈ cells, e.IsFaithful) :
      IsRaw (cells.flatMap Cell.line) := by
    intro c hc
    rcases List.mem_flatMap.mp hc with ⟨e, he, hIn⟩
    exact (hCells e he).isRaw_line c hIn
  refine List.forall_mem_append.mpr ⟨?_, hLines hInner⟩
  exact List.forall_mem_append.mpr
    ⟨hLines hOuter, isRaw_headerLine table⟩

/-
  Entries that are spelled faithfully and whose names are not
  repeated are read back from their text.
-/
theorem parse?_sheet
    {outer inner : List Cell}
    {table : String}
    (hOuter : ∀ e ∈ outer, e.IsFaithful)
    (hInner : ∀ e ∈ inner, e.IsFaithful)
    (hNames : (table :: outer.map Cell.name).Nodup)
    (hInnerNames : (inner.map Cell.name).Nodup) :
    parse? (String.ofList (sheet outer table inner)) =
      some (outer.map Cell.entry ++
        [(table, .table .header (inner.map Cell.entry))]) := by
  have hKeys (cells : List Cell) :
      Pairs.keys (cells.map Cell.entry) =
        cells.map Cell.name :=
    List.map_map
  rw [List.nodup_cons] at hNames
  have hStatements :
      statements? (String.ofList (sheet outer table inner)) =
        some ((outer.map Cell.entry).map Statement.plain ++
          .openTable ⟨[], table⟩ ::
            (inner.map Cell.entry).map Statement.plain) := by
    have hFlatten :
        sheet outer table inner =
          (outer.map Cell.line ++ ('\n' :: headerLine table) ::
            inner.map Cell.line).flatten := by
      simp [sheet, List.flatMap]
    have hHead := head?_sheet_ne outer table inner
    have hRaw := isRaw_sheet hOuter hInner table
    rw [hFlatten] at hHead hRaw ⊢
    refine statements?_of_lines ?_ hRaw hHead
    exact List.rel_append (lineOf_cells hOuter)
      (.cons (lineOf_header table) (lineOf_cells hInner))
  unfold parse?
  rw [hStatements, Option.bind_eq_bind, Option.bind_some,
    Document.performAll_table]
  · rfl
  · rw [hKeys]
    exact hNames.2
  · rw [hKeys]
    exact hNames.1
  · rw [hKeys]
    exact hInnerNames

end Toml

end Palimpsest
