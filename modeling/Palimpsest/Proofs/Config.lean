import Mathlib.Tactic.IntervalCases
import Palimpsest.Command.Answer
import Palimpsest.Proofs.Files.Write
import Palimpsest.Proofs.Toml.Document

/-
  A configuration survives being printed and read again.

  Main declarations:
    * `Dictionary.ofList_pairs`
    * `Config.render_eq_sheet`
    * `Config.ofEntries?_entries`
    * `Config.survives_printing`
-/

namespace Palimpsest

------------------------------------------------------------
-- Dictionaries From Their Pairs
------------------------------------------------------------

namespace Pairs

variable {α : Type}

/- A key behind all others goes to the end. -/
theorem insertSorted_last
    {pairs : List (String × α)}
    {key : String}
    (hLast : ∀ k ∈ keys pairs, k < key)
    (value : α) :
    insertSorted key value pairs = pairs ++ [(key, value)] := by
  induction pairs with
  | nil =>
      rfl
  | cons pair rest ih =>
      rcases pair with ⟨k, v⟩
      have hk : k < key :=
        hLast k List.mem_cons_self
      have hNe : key ≠ k := by
        rintro rfl
        exact String.lt_irrefl _ hk
      have hNot : ¬ key < k :=
        fun hLess => String.lt_irrefl _
          (String.lt_trans hk hLess)
      rw [insertSorted, if_neg hNe, if_neg hNot,
        ih (fun other hOther =>
          hLast other (List.mem_cons_of_mem k hOther))]
      rfl

end Pairs

namespace Dictionary

variable {α : Type}

/- Ascending pairs behind all others are added in order. -/
theorem pairs_foldl_insert
    {d : Dictionary α}
    {pairs : List (String × α)}
    (hAscending : Pairs.Ascending (d.pairs ++ pairs)) :
    (pairs.foldl (fun d pair => d.insert pair.1 pair.2)
        d).pairs = d.pairs ++ pairs := by
  induction pairs generalizing d with
  | nil =>
      exact (List.append_nil d.pairs).symm
  | cons pair rest ih =>
      rcases pair with ⟨key, value⟩
      have hLast : ∀ k ∈ Pairs.keys d.pairs, k < key := by
        unfold Pairs.Ascending Pairs.keys at hAscending
        rw [List.map_append, List.pairwise_append]
          at hAscending
        exact fun k hk =>
          hAscending.2.2 k hk key List.mem_cons_self
      have hInsert :
          (d.insert key value).pairs =
            d.pairs ++ [(key, value)] :=
        Pairs.insertSorted_last hLast value
      rw [List.append_cons, ← hInsert] at hAscending ⊢
      exact ih hAscending

/- The pairs of a dictionary make the dictionary again. -/
theorem ofList_pairs (d : Dictionary α) :
    ofList d.pairs = d := by
  apply ext
  exact pairs_foldl_insert d.ascending

end Dictionary

------------------------------------------------------------
-- Entries Of A Configuration
------------------------------------------------------------

namespace Config

open Toml

/- The single fields as entries with their spellings. -/
def fieldCells (c : Config) : List Cell :=
  [Cell.ofText Field.basePath.name c.basePath.text] ++
    (c.destinationPath.map (fun path =>
      Cell.ofText Field.destinationPath.name
        path.text)).toList ++
    [⟨Field.indentWidth.name, .integer c.indentWidth,
        Nat.toDigits 10 c.indentWidth⟩,
      ⟨Field.useTabs.name, .boolean c.useTabs,
        spellFlag c.useTabs⟩,
      Cell.ofText Field.extension.name c.extension,
      Cell.ofText Field.packageFileStem.name
        c.packageFileStem]

/- The type mappings as entries with their spellings. -/
def mappingCells (c : Config) : List Cell :=
  c.typeMappings.pairs.map
    (fun pair => Cell.ofText pair.1 pair.2)

/- The printed text holds the fields and then the mappings. -/
theorem render_eq_sheet (c : Config) :
    c.render =
      String.ofList (sheet c.fieldCells
        Field.typeMappings.name c.mappingCells) := by
  unfold render sheet
  congr 2
  · unfold fieldLines fieldCells
    cases c.destinationPath <;>
      simp [pathLine, Cell.line, Cell.ofText]
  · unfold mappingLines mappingCells
    rw [List.flatMap_map]
    rfl

/- A flag is read as it is spelled. -/
theorem spells_flag (value : Bool) :
    Spells (spellFlag value) (.boolean value) := by
  cases value with
  | true =>
      exact spells_word (by decide) (by decide) rfl
  | false =>
      exact spells_word (by decide) (by decide) rfl

/- A width in range is read as it is spelled. -/
theorem spells_width
    {width : Nat}
    (hWidth : width ≤ maxIndentWidth) :
    Spells (Nat.toDigits 10 width) (.integer width) := by
  unfold maxIndentWidth at hWidth
  -- There are few widths, and each is a word of digits.
  interval_cases width <;>
    exact spells_word (by decide) (by decide) rfl

theorem isFaithful_fieldCells
    {c : Config}
    (hWidth : c.indentWidth ≤ maxIndentWidth) :
    ∀ e ∈ c.fieldCells, e.IsFaithful := by
  have hWidthRaw :
      ∀ n ≤ maxIndentWidth, IsRaw (Nat.toDigits 10 n) := by
    decide
  have hFlagRaw : ∀ value, IsRaw (spellFlag value) := by
    decide
  intro e he
  simp only [fieldCells, List.mem_append, List.mem_cons,
    Option.mem_toList, Option.map_eq_some_iff,
    List.not_mem_nil, or_false] at he
  rcases he with (rfl | ⟨path, _, rfl⟩) |
    rfl | rfl | rfl | rfl
  · exact Cell.isFaithful_ofText _ _
  · exact Cell.isFaithful_ofText _ _
  · exact ⟨spells_width hWidth, hWidthRaw _ hWidth⟩
  · exact ⟨spells_flag _, hFlagRaw _⟩
  · exact Cell.isFaithful_ofText _ _
  · exact Cell.isFaithful_ofText _ _

theorem isFaithful_mappingCells (c : Config) :
    ∀ e ∈ c.mappingCells, e.IsFaithful := by
  rintro e he
  rcases List.mem_map.mp he with ⟨pair, _, rfl⟩
  exact Cell.isFaithful_ofText pair.1 pair.2

/- No field is written twice. -/
theorem nodup_fieldCells (c : Config) :
    (Field.typeMappings.name ::
      c.fieldCells.map Cell.name).Nodup := by
  unfold fieldCells
  cases c.destinationPath with
  | none =>
      simp only [Option.map_none, Option.toList_none,
        List.append_nil]
      exact (by decide :
        ["type_mappings", "base_path", "indent_width",
          "use_tabs", "extension",
          "package_file_stem"].Nodup)
  | some path =>
      exact (by decide :
        ["type_mappings", "base_path", "destination_path",
          "indent_width", "use_tabs", "extension",
          "package_file_stem"].Nodup)

/- No type is mapped twice. -/
theorem nodup_mappingCells (c : Config) :
    (c.mappingCells.map Cell.name).Nodup := by
  have hNames :
      c.mappingCells.map Cell.name =
        Pairs.keys c.typeMappings.pairs :=
    List.map_map
  rw [hNames]
  refine c.typeMappings.ascending.imp (fun hLess hEq => ?_)
  exact String.lt_irrefl _ (hEq ▸ hLess)

------------------------------------------------------------
-- Reading The Entries
------------------------------------------------------------

/- The entries that a printed configuration has. -/
def entries (c : Config) : Entries :=
  c.fieldCells.map Cell.entry ++
    [(Field.typeMappings.name,
      .table .header (c.mappingCells.map Cell.entry))]

/- A printed configuration has its entries. -/
theorem parse?_render
    {c : Config}
    (hWidth : c.indentWidth ≤ maxIndentWidth) :
    Toml.parse? c.render = some c.entries := by
  rw [render_eq_sheet]
  exact parse?_sheet (isFaithful_fieldCells hWidth)
    (isFaithful_mappingCells c) (nodup_fieldCells c)
    (nodup_mappingCells c)

/- Entries that are texts map their names to the texts. -/
theorem textPairs?_ofText (pairs : List (String × String)) :
    textPairs?
        ((pairs.map (fun pair =>
          Cell.ofText pair.1 pair.2)).map Cell.entry) =
      some pairs := by
  induction pairs with
  | nil =>
      rfl
  | cons pair rest ih =>
      rw [List.map_cons, List.map_cons]
      have hFirst :
          (Cell.ofText pair.1 pair.2).entry =
            (pair.1, .string pair.2) :=
        rfl
      rw [hFirst, textPairs?, ih]
      rfl

/- The entries of the mappings are read as the mappings. -/
theorem mapping?_mappingCells (c : Config) :
    mapping? (.table .header
        (c.mappingCells.map Cell.entry)) =
      some c.typeMappings := by
  have hPairs := textPairs?_ofText c.typeMappings.pairs
  have hDictionary := Dictionary.ofList_pairs c.typeMappings
  unfold mapping? mappingCells
  dsimp only
  rw [hPairs, Option.map_some, hDictionary]

/- The entries of a configuration hold the configuration. -/
theorem ofEntries?_entries (c : Config) :
    ofEntries? c.entries = some c := by
  have hMapping := mapping?_mappingCells c
  rcases c with ⟨⟨base⟩, destination, width, tabs, extension,
    stem, mappings⟩
  cases destination with
  | none =>
      simp [ofEntries?, field, entries, fieldCells,
        Cell.entry, Cell.ofText, Field.name, List.lookup_cons,
        path?, text?, width?, flag?, default, hMapping]
  | some path =>
      simp [ofEntries?, field, entries, fieldCells,
        Cell.entry, Cell.ofText, Field.name, List.lookup_cons,
        path?, text?, width?, flag?, hMapping]

------------------------------------------------------------
-- Printing And Reading Again
------------------------------------------------------------

/- An accepted configuration has a width in range. -/
theorem width_le_of_validate
    {c : Config}
    (hAccepted : c.validate = .ok ()) :
    c.indentWidth ≤ maxIndentWidth := by
  by_contra hWide
  have hFault : ∃ fault, c.fault? = some fault := by
    unfold fault?
    split
    · exact ⟨_, rfl⟩
    split
    · exact ⟨_, rfl⟩
    split
    · exact ⟨_, rfl⟩
    rw [if_pos (Nat.lt_of_not_le hWide)]
    exact ⟨_, rfl⟩
  rcases hFault with ⟨fault, hFault⟩
  unfold validate at hAccepted
  rw [hFault] at hAccepted
  cases hAccepted

/- A printed configuration is read as the configuration. -/
theorem parse_render
    {c : Config}
    (hAccepted : c.validate = .ok ()) :
    parse c.render = .ok c := by
  have hWidth := width_le_of_validate hAccepted
  unfold parse
  rw [parse?_render hWidth, Option.bind_some,
    ofEntries?_entries]
  dsimp only
  rw [hAccepted]

/- What was read is accepted. -/
theorem validate_of_parse
    {text : String}
    {c : Config}
    (hParse : parse text = .ok c) :
    c.validate = .ok () := by
  unfold parse at hParse
  split at hParse
  · cases hParse
  · split at hParse
    · cases hParse
    · rename_i hAccepted
      cases hParse
      exact hAccepted

/- What was loaded is accepted. -/
theorem validate_of_load
    {t : FileTree}
    {file : FilePath}
    {c : Config}
    (hLoad : load t file = .ok c) :
    c.validate = .ok () := by
  unfold load at hLoad
  split at hLoad
  · cases hLoad
  · exact validate_of_parse hLoad

/- A file with a printed configuration holds it. -/
theorem load_of_read_render
    {t : FileTree}
    {file : FilePath}
    {c : Config}
    (hAccepted : c.validate = .ok ())
    (hRead : t.read file = .ok c.render) :
    load t file = .ok c := by
  unfold load
  rw [hRead]
  exact parse_render hAccepted

end Config

------------------------------------------------------------
-- Printing From The Command Line
------------------------------------------------------------

namespace Command

/- A configuration that is shown is accepted. -/
theorem validate_of_config
    {t : FileTree}
    {source : Option FilePath}
    {c : Config}
    (hConfig : config t source = .ok c) :
    c.validate = .ok () := by
  cases source with
  | none =>
      cases hConfig
      rfl
  | some file =>
      unfold config at hConfig
      dsimp only at hConfig
      split at hConfig
      · cases hConfig
      · rename_i hLoad
        cases hConfig
        exact Config.validate_of_load hLoad

/- What is shown is an accepted configuration, printed. -/
theorem exists_render_of_answer
    {t : FileTree}
    {source : Option FilePath}
    {text : String}
    (hAnswer :
      answer t (.config source) = Outcome.success text) :
    ∃ c : Config, c.validate = .ok () ∧ text = c.render := by
  unfold answer at hAnswer
  dsimp only at hAnswer
  split at hAnswer
  · cases hAnswer
  · rename_i c hConfig
    exact ⟨c, validate_of_config hConfig,
      (congrArg Outcome.output hAnswer).symm⟩

/- A printed configuration is shown as it is. -/
theorem answer_of_read_render
    {t : FileTree}
    {file : FilePath}
    {c : Config}
    (hAccepted : c.validate = .ok ())
    (hRead : t.read file = .ok c.render) :
    answer t (.config (some file)) =
      Outcome.success c.render := by
  have hConfig : config t (some file) = .ok c := by
    unfold config
    dsimp only
    rw [Config.load_of_read_render hAccepted hRead]
  unfold answer
  dsimp only
  rw [hConfig]

end Command

/-
  Each configuration that is accepted is read back from its
  text.  So what the command line shows for a file that holds
  the text of a configuration it has shown is that text.
-/
theorem Config.survives_printing :
    (∀ c : Config, c.validate = .ok () →
      Config.parse c.render = .ok c) ∧
      ∀ (t u : FileTree) (source : Option FilePath)
        (file : FilePath) (text : String),
        Command.answer t (.config source) =
            Command.Outcome.success text →
          u.read file = .ok text →
            Command.answer u (.config (some file)) =
              Command.Outcome.success text := by
  refine ⟨fun c => parse_render, ?_⟩
  intro t u source file text hAnswer hRead
  rcases Command.exists_render_of_answer hAnswer with
    ⟨c, hAccepted, rfl⟩
  exact Command.answer_of_read_render hAccepted hRead

/- A configuration that needs all kinds of quotes. -/
def Config.awkward : Config where
  basePath := ⟨"a \"b\" 'c'\\"⟩
  destinationPath := none
  indentWidth := 16
  useTabs := true
  extension := "\n'''\"\"\"\x07"
  packageFileStem := "\n''"
  typeMappings := Dictionary.ofList
    [("", "\n\n"), ("a.b", "\t"), ("\r\"", "''\n\"\"")]

/- The file in which a printed configuration is kept. -/
def Config.file : FilePath :=
  ⟨"mdg.toml"⟩

/- The tree in which the default configuration was saved. -/
def Config.savedTree : FileTree :=
  (FileTree.empty.write Config.file Config.default.render).2

/- The awkward configuration, and a saved default one. -/
theorem Config.survives_printing_awkward :
    Config.awkward.validate = .ok () ∧
      Config.parse Config.awkward.render =
        .ok Config.awkward ∧
      Command.answer FileTree.empty (.config none) =
        Command.Outcome.success Config.default.render ∧
      Config.savedTree.read Config.file =
        .ok Config.default.render ∧
      Command.answer Config.savedTree
          (.config (some Config.file)) =
        Command.Outcome.success Config.default.render := by
  have hAccepted : Config.awkward.validate = .ok () :=
    rfl
  have hShown :
      Command.answer FileTree.empty (.config none) =
        Command.Outcome.success Config.default.render :=
    rfl
  have hNothing : FileTree.empty.at? ["mdg.toml"] = none :=
    rfl
  have hFree :
      FileTree.empty.at? ["mdg.toml"] ≠ some .directory := by
    rw [hNothing]
    exact nofun
  have hWrite :
      FileTree.empty.write Config.file Config.default.render =
        (.ok (), Config.savedTree) :=
    FileTree.write_eq_ok_iff.mpr
      ⟨["mdg.toml"], by decide, by decide, hFree, rfl⟩
  have hRead := (FileTree.holds_of_write hWrite).read_eq_ok
  refine ⟨hAccepted,
    survives_printing.1 awkward hAccepted, hShown, hRead, ?_⟩
  exact survives_printing.2 _ _ none _ _ hShown hRead

end Palimpsest
