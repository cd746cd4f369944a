import Mathlib.Data.List.Infix
import Mathlib.Data.List.Nodup
import Palimpsest.Files.Explore
import Palimpsest.Proofs.Files.Along
import Palimpsest.Proofs.Table

/-
  What is below a directory.

  A directory lists what stands right below it, each name
  once.  In a rooted tree, all that is below a directory is
  listed there, or it is below a directory that is listed
  there, and never both.

  Main declarations:
    * `Location.IsBelow`
    * `FileTree.mem_entries_iff`
    * `FileTree.below`
    * `FileTree.IsRooted.below_perm`
    * `FileTree.sources`
    * `FileTree.IsRooted.sources_perm`
-/

namespace Palimpsest

------------------------------------------------------------
-- Places Below A Place
------------------------------------------------------------

namespace Location

variable {place other : Location} {name : String}

/-
  A place inside a directory, at any depth.  The places above
  the root are not inside the root.
-/
def IsBelow (place other : Location) : Prop :=
  place <+: other ∧
    place.length < other.length ∧
      ¬ IsUpward (other.take (place.length + 1))

instance (place other : Location) :
    Decidable (IsBelow place other) := by
  unfold IsBelow
  infer_instance

theorem take_next
    (place : Location)
    (name : String)
    (rest : List String) :
    (place ++ name :: rest).take (place.length + 1) =
      place ++ [name] :=
  List.take_length_add_append 1

theorem isBelow_iff :
    IsBelow place other ↔
      ∃ name rest,
        other = place ++ name :: rest ∧
          ¬ IsUpward (place ++ [name]) := by
  unfold IsBelow
  constructor
  · rintro ⟨⟨rest, rfl⟩, hLength, hUpward⟩
    cases rest with
    | nil =>
        simp at hLength
    | cons name rest =>
        rw [take_next] at hUpward
        exact ⟨name, rest, rfl, hUpward⟩
  · rintro ⟨name, rest, rfl, hUpward⟩
    rw [take_next]
    exact ⟨List.prefix_append _ _, by simp, hUpward⟩

theorem isBelow_concat_iff :
    IsBelow place (place ++ [name]) ↔
      ¬ IsUpward (place ++ [name]) := by
  unfold IsBelow
  rw [take_next]
  simp

/- What is below a place is neither the root nor above it. -/
theorem IsBelow.not_isUpward (hBelow : IsBelow place other) :
    ¬ other.IsUpward :=
  fun hUpward => hBelow.2.2
    (FileTree.isUpward_of_front hUpward (List.take_prefix _ _))

/-
  What is below a place is right below it, or it is below a
  place that is.
-/
theorem isBelow_iff_or :
    IsBelow place other ↔
      ∃ name,
        ¬ IsUpward (place ++ [name]) ∧
          (other = place ++ [name] ∨
            IsBelow (place ++ [name]) other) := by
  rw [isBelow_iff]
  constructor
  · rintro ⟨name, rest, rfl, hUpward⟩
    refine ⟨name, hUpward, ?_⟩
    cases rest with
    | nil =>
        exact .inl rfl
    | cons next rest =>
        refine .inr (isBelow_iff.mpr
          ⟨next, rest, by simp, fun hNext => hUpward ?_⟩)
        exact FileTree.isUpward_of_front hNext
          (List.prefix_append _ _)
  · rintro ⟨name, hUpward, rfl | hBelow⟩
    · exact ⟨name, [], rfl, hUpward⟩
    · rcases isBelow_iff.mp hBelow with ⟨next, rest, rfl, _⟩
      exact ⟨name, next :: rest, by simp, hUpward⟩

/- Nothing is below two places right below the same place. -/
theorem IsBelow.name_eq
    {second : String}
    (hFirst : IsBelow (place ++ [name]) other)
    (hSecond : IsBelow (place ++ [second]) other) :
    name = second := by
  have hFront :=
    (List.prefix_of_prefix_length_le hFirst.1 hSecond.1
      (by simp)).eq_of_length (by simp)
  simpa using hFront

end Location

------------------------------------------------------------
-- What A Directory Lists
------------------------------------------------------------

namespace FileTree

variable {t u : FileTree} {place other : Location}

/- What is there, the root and above aside, is in the table. -/
theorem mem_pairs_of_at?
    {n : Node}
    (hUpward : ¬ place.IsUpward)
    (hNode : t.at? place = some n) :
    (place, n) ∈ t.nodes.pairs := by
  unfold at? at hNode
  rw [if_neg hUpward] at hNode
  exact Table.find?_eq_some_iff.mp hNode

theorem entryIn?_eq_some_iff
    {node : Location × Node}
    {e : Entry} :
    entryIn? place node = some e ↔
      node = (place ++ [e.name], e.node) ∧
        ¬ Location.IsUpward (place ++ [e.name]) := by
  rcases node with ⟨key, n⟩
  unfold entryIn?
  rcases List.eq_nil_or_concat key with rfl | ⟨front, last, rfl⟩
  · simp
  · rw [List.concat_eq_append]
    simp only [List.getLast?_concat, List.dropLast_concat]
    split
    · rename_i hHere
      rcases hHere with ⟨rfl, hUpward⟩
      rw [Option.some.injEq]
      constructor
      · rintro rfl
        exact ⟨rfl, hUpward⟩
      · rintro ⟨hNode, _⟩
        cases e
        simpa using hNode
    · rename_i hNot
      rw [iff_false_left (by simp)]
      rintro ⟨hNode, hUpward⟩
      rw [Prod.mk.injEq] at hNode
      rw [← hNode.1] at hUpward
      refine hNot ⟨?_, hUpward⟩
      have hFront := congrArg List.dropLast hNode.1
      simpa using hFront

/- The entries of a directory are what is right below it. -/
theorem mem_entries_iff {e : Entry} :
    e ∈ t.entries place ↔
      ¬ Location.IsUpward (place ++ [e.name]) ∧
        t.at? (place ++ [e.name]) = some e.node := by
  unfold entries
  rw [List.mem_filterMap]
  constructor
  · rintro ⟨node, hNode, hEntry⟩
    rcases entryIn?_eq_some_iff.mp hEntry with ⟨rfl, hUpward⟩
    refine ⟨hUpward, ?_⟩
    unfold at?
    rw [if_neg hUpward, Table.find?_eq_some_iff]
    exact hNode
  · rintro ⟨hUpward, hNode⟩
    exact ⟨_, mem_pairs_of_at? hUpward hNode,
      entryIn?_eq_some_iff.mpr ⟨rfl, hUpward⟩⟩

/- The places right below a directory. -/
def listed
    (t : FileTree)
    (place : Location) : List Location :=
  (t.entries place).map (fun e => place ++ [e.name])

/- The directories right below a directory. -/
def listedDirectories
    (t : FileTree)
    (place : Location) : List Location :=
  ((t.entries place).filter
    (fun e => decide e.node.IsDirectory)).map
      (fun e => place ++ [e.name])

theorem mem_listed_iff :
    other ∈ t.listed place ↔
      ∃ name n,
        other = place ++ [name] ∧
          ¬ other.IsUpward ∧ t.at? other = some n := by
  unfold listed
  rw [List.mem_map]
  constructor
  · rintro ⟨e, hEntry, rfl⟩
    exact ⟨e.name, e.node, rfl, mem_entries_iff.mp hEntry⟩
  · rintro ⟨name, n, rfl, hNode⟩
    exact ⟨⟨name, n⟩, mem_entries_iff.mpr hNode, rfl⟩

theorem mem_listedDirectories_iff :
    other ∈ t.listedDirectories place ↔
      ∃ name,
        other = place ++ [name] ∧
          ¬ other.IsUpward ∧
            t.at? other = some .directory := by
  unfold listedDirectories
  rw [List.mem_map]
  constructor
  · rintro ⟨⟨name, n⟩, hEntry, rfl⟩
    rw [List.mem_filter, mem_entries_iff] at hEntry
    cases n with
    | directory =>
        exact ⟨name, rfl, hEntry.1⟩
    | file content =>
        exact (of_decide_eq_true hEntry.2).elim
  · rintro ⟨name, rfl, hNode⟩
    refine ⟨⟨name, .directory⟩, ?_, rfl⟩
    rw [List.mem_filter, mem_entries_iff]
    exact ⟨hNode, decide_eq_true trivial⟩

/- No name is listed twice. -/
theorem nodup_listed (t : FileTree) (place : Location) :
    (t.listed place).Nodup := by
  have hPairs : t.nodes.pairs.Nodup :=
    List.Nodup.of_map Prod.fst t.nodes.nodup_keys
  have hEntries : (t.entries place).Nodup := by
    apply List.Nodup.filterMap _ hPairs
    intro first second e hFirst hSecond
    rw [Option.mem_def, entryIn?_eq_some_iff] at hFirst hSecond
    rw [hFirst.1, hSecond.1]
  apply hEntries.map_on
  intro first hFirst second hSecond hSame
  rw [mem_entries_iff] at hFirst hSecond
  rw [hSame, hSecond.2] at hFirst
  have hNode := Option.some.inj hFirst.2
  have hName : first.name = second.name := by
    simpa using hSame
  cases first
  cases second
  simp_all

theorem nodup_listedDirectories
    (t : FileTree)
    (place : Location) :
    (t.listedDirectories place).Nodup :=
  (t.nodup_listed place).sublist
    (List.filter_sublist.map _)

/- A tree is rooted when all nodes in its table are led to. -/
theorem isRooted_of_pairs
    (hPairs : ∀ pair ∈ t.nodes.pairs, ∀ lead ∈ pair.1.inits,
      lead ≠ pair.1 →
        ∃ n ∈ t.at? lead, n.IsDirectory) :
    t.IsRooted := by
  intro other n hNode lead hLead hNe
  by_cases hUpward : other.IsUpward
  · exact t.at?_of_isUpward (isUpward_of_front hUpward hLead)
  · rcases hPairs _ (mem_pairs_of_at? hUpward hNode) lead
      ((List.mem_inits _ _).mpr hLead) hNe with
      ⟨m, hMem, hDirectory⟩
    cases m with
    | directory =>
        exact hMem
    | file content =>
        exact hDirectory.elim

------------------------------------------------------------
-- All That Is Below A Directory
------------------------------------------------------------

/- The places below a directory where something is. -/
def below
    (t : FileTree)
    (place : Location) : List Location :=
  t.nodes.keys.filter
    (fun other => decide (place.IsBelow other))

theorem mem_below_iff :
    other ∈ t.below place ↔
      place.IsBelow other ∧ t.at? other ≠ none := by
  unfold below
  rw [List.mem_filter, decide_eq_true_eq, and_comm,
    and_congr_right_iff]
  intro hBelow
  unfold at?
  rw [if_neg hBelow.not_isUpward, Ne,
    Table.find?_eq_none_iff, not_not]

theorem nodup_below (t : FileTree) (place : Location) :
    (t.below place).Nodup :=
  t.nodes.nodup_keys.sublist List.filter_sublist

theorem length_below_le (t : FileTree) (place : Location) :
    (t.below place).length ≤ t.nodes.size := by
  have hKeys : t.nodes.keys.length = t.nodes.size :=
    List.length_map ..
  rw [← hKeys]
  exact List.length_filter_le ..

/- What is below a listed directory, for each such directory. -/
theorem nodup_flatMap_below (t : FileTree) (place : Location) :
    ((t.listedDirectories place).flatMap t.below).Nodup := by
  rw [List.nodup_flatMap]
  refine ⟨fun other _ => t.nodup_below other, ?_⟩
  refine (t.nodup_listedDirectories place).imp_of_mem ?_
  intro first second hFirst hSecond hNe other hInFirst hInSecond
  rcases mem_listedDirectories_iff.mp hFirst with ⟨name, rfl, _⟩
  rcases mem_listedDirectories_iff.mp hSecond with
    ⟨next, rfl, _⟩
  rw [mem_below_iff] at hInFirst hInSecond
  rw [hInFirst.1.name_eq hInSecond.1] at hNe
  exact hNe rfl

/-
  All that is below a directory is listed there or is below a
  directory that is listed there, and not both.
-/
theorem IsRooted.below_perm
    (hRooted : t.IsRooted)
    (place : Location) :
    (t.below place).Perm
      (t.listed place ++
        (t.listedDirectories place).flatMap t.below) := by
  have hApart :
      List.Disjoint (t.listed place)
        ((t.listedDirectories place).flatMap t.below) := by
    intro other hListed hBelow
    rcases mem_listed_iff.mp hListed with ⟨name, _, rfl, _⟩
    rcases List.mem_flatMap.mp hBelow with ⟨lead, hLead, hIn⟩
    rcases mem_listedDirectories_iff.mp hLead with
      ⟨next, rfl, _⟩
    have hLonger := (mem_below_iff.mp hIn).1.2.1
    simp at hLonger
  rw [List.perm_ext_iff_of_nodup (t.nodup_below place)
    ((t.nodup_listed place).append
      (t.nodup_flatMap_below place) hApart)]
  intro other
  rw [mem_below_iff, List.mem_append, mem_listed_iff,
    List.mem_flatMap, Location.isBelow_iff_or]
  constructor
  · rintro ⟨⟨name, hUpward, rfl | hBelow⟩, hSome⟩
    · rcases Option.ne_none_iff_exists'.mp hSome with ⟨n, hNode⟩
      exact .inl ⟨name, n, rfl, hUpward, hNode⟩
    · rcases Option.ne_none_iff_exists'.mp hSome with ⟨n, hNode⟩
      have hLead := hRooted other n hNode _ hBelow.1
        (fun hEq => absurd hBelow.2.1 (by simp [← hEq]))
      exact .inr ⟨place ++ [name],
        mem_listedDirectories_iff.mpr
          ⟨name, rfl, hUpward, hLead⟩,
        mem_below_iff.mpr ⟨hBelow, hSome⟩⟩
  · rintro (⟨name, n, rfl, hUpward, hNode⟩ |
      ⟨lead, hLead, hIn⟩)
    · exact ⟨⟨name, hUpward, .inl rfl⟩, by simp [hNode]⟩
    · rcases mem_listedDirectories_iff.mp hLead with
        ⟨name, rfl, hUpward, _⟩
      rw [mem_below_iff] at hIn
      exact ⟨⟨name, hUpward, .inr hIn.1⟩, hIn.2⟩

------------------------------------------------------------
-- Files With An Extension
------------------------------------------------------------

instance (t : FileTree) (place : Location) :
    Decidable (t.HasFile place) :=
  match hNode : t.at? place with
  | none =>
      isFalse (fun ⟨_, hFile⟩ => by simp [hNode] at hFile)
  | some .directory =>
      isFalse (fun ⟨_, hFile⟩ => by simp [hNode] at hFile)
  | some (.file content) => isTrue ⟨content, hNode⟩

/- There is a file, and its name has the extension. -/
def IsSource
    (t : FileTree)
    (extension : String)
    (place : Location) : Prop :=
  t.HasFile place ∧
    place.getLast?.bind
        (fun name => (FilePath.cutExtension name).2) =
      some extension

instance
    (t : FileTree)
    (extension : String)
    (place : Location) :
    Decidable (t.IsSource extension place) := by
  unfold IsSource
  infer_instance

theorem IsSource.ne_none
    {extension : String}
    (hSource : t.IsSource extension place) :
    t.at? place ≠ none := by
  rcases hSource with ⟨⟨content, hNode⟩, _⟩
  simp [hNode]

/- The files below a directory that have an extension. -/
def sources
    (t : FileTree)
    (extension : String)
    (place : Location) : List Location :=
  (t.below place).filter
    (fun other => decide (t.IsSource extension other))

/- The files right below a directory with an extension. -/
def listedSources
    (t : FileTree)
    (extension : String)
    (place : Location) : List Location :=
  (t.listed place).filter
    (fun other => decide (t.IsSource extension other))

theorem mem_sources_iff {extension : String} :
    other ∈ t.sources extension place ↔
      place.IsBelow other ∧ t.IsSource extension other := by
  unfold sources
  rw [List.mem_filter, decide_eq_true_eq, mem_below_iff,
    and_assoc, and_congr_right_iff, and_iff_right_iff_imp]
  exact fun _ hSource => hSource.ne_none

theorem nodup_sources
    (t : FileTree)
    (extension : String)
    (place : Location) :
    (t.sources extension place).Nodup :=
  (t.nodup_below place).filter _

theorem IsRooted.sources_perm
    (hRooted : t.IsRooted)
    (extension : String)
    (place : Location) :
    (t.sources extension place).Perm
      (t.listedSources extension place ++
        (t.listedDirectories place).flatMap
          (t.sources extension)) := by
  have hParts := (hRooted.below_perm place).filter
    (fun other => decide (t.IsSource extension other))
  rw [List.filter_append, List.filter_flatMap] at hParts
  exact hParts

end FileTree

end Palimpsest
