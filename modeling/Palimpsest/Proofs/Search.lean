import Palimpsest.Proofs.Files.Entry

/-
  What the search for files finds.

  Listing a waiting directory trades it for the directories in
  it, and its files are found.  What is found together with
  what is below the waiting directories stays the same, and
  each listing takes one node away from below them.  So the
  search ends, and it has found each file below the directory
  once, in whatever order directories are listed.

  Main declarations:
    * `FileTree.IsSearchable`
    * `Search.foldl_take`
    * `Search.run_step`
    * `Search.run_eq`
    * `FileTree.IsSearchable.filesWithExtension_eq`
-/

namespace Palimpsest

------------------------------------------------------------
-- Directories That Can Be Searched
------------------------------------------------------------

namespace FileTree

variable {t : FileTree} {directory : FilePath}
variable {extension : String} {place other : Location}

/-
  A path to a directory below which the paths of all the
  directories, and of all the files with the extension, are
  short enough to be looked up.
-/
structure IsSearchable
    (t : FileTree)
    (directory : FilePath)
    (extension : String)
    (place : Location) : Prop where
  rooted : t.IsRooted
  entries : t.HasEntryNames
  located : t.locate directory = .ok place
  here : t.at? place = some .directory
  short : ∀ names,
    place.IsBelow (place ++ names) →
      t.at? (place ++ names) = some .directory ∨
        t.IsSource extension (place ++ names) →
      (directory.pathBelow names).text.utf8ByteSize ≤
        maxPathSize

/- The path by which a search reaches a place. -/
def pathTo
    (directory : FilePath)
    (place other : Location) : FilePath :=
  directory.pathBelow (other.drop place.length)

theorem pathTo_self (directory : FilePath) (place : Location) :
    pathTo directory place place = directory := by
  unfold pathTo
  rw [List.drop_length]
  rfl

theorem pathTo_append
    (directory : FilePath)
    (place : Location)
    (names : List String) :
    pathTo directory place (place ++ names) =
      directory.pathBelow names := by
  unfold pathTo
  rw [List.drop_left]

theorem pathTo_concat
    (hFront : place <+: other)
    (directory : FilePath)
    (name : String) :
    pathTo directory place (other ++ [name]) =
      (pathTo directory place other).join ⟨name⟩ := by
  rcases hFront with ⟨names, rfl⟩
  rw [List.append_assoc, pathTo_append, pathTo_append,
    FilePath.pathBelow_concat]

/- A directory that the search comes to. -/
def IsReached
    (t : FileTree)
    (place other : Location) : Prop :=
  (other = place ∨ place.IsBelow other) ∧
    t.at? other = some .directory

theorem IsReached.front (hReached : t.IsReached place other) :
    place <+: other := by
  rcases hReached.1 with rfl | hBelow
  · exact List.prefix_rfl
  · exact hBelow.1

/- The directories in a directory are reached after it. -/
theorem IsReached.listed
    {lead : Location}
    (hReached : t.IsReached place lead)
    (hListed : other ∈ t.listedDirectories lead) :
    t.IsReached place other := by
  rcases mem_listedDirectories_iff.mp hListed with
    ⟨name, rfl, hUpward, hNode⟩
  refine ⟨.inr ?_, hNode⟩
  rcases hReached.1 with rfl | hBelow
  · exact Location.isBelow_concat_iff.mpr hUpward
  · rcases Location.isBelow_iff.mp hBelow with
      ⟨first, rest, rfl, hFirst⟩
    exact Location.isBelow_iff.mpr
      ⟨first, rest ++ [name], by simp, hFirst⟩

namespace IsSearchable

variable (hTree : t.IsSearchable directory extension place)
include hTree

theorem names_of_isBelow
    {names : List String}
    (hBelow : place.IsBelow (place ++ names))
    (hSome : t.at? (place ++ names) ≠ none) :
    ∀ name ∈ names, IsEntryName name :=
  hTree.entries.of_isBelow hTree.rooted hBelow hSome

/- Everything that the search looks up is found. -/
theorem locate_pathTo
    (hBelow : other = place ∨ place.IsBelow other)
    (hKind :
      t.at? other = some .directory ∨
        t.IsSource extension other) :
    t.locate (pathTo directory place other) = .ok other := by
  rcases hBelow with rfl | hBelow
  · rw [pathTo_self]
    exact hTree.located
  rcases hBelow.1 with ⟨names, rfl⟩
  have hSome : t.at? (place ++ names) ≠ none := by
    rcases hKind with hNode | ⟨⟨content, hNode⟩, _⟩ <;>
      simp [hNode]
  rw [pathTo_append]
  refine hTree.rooted.locate_pathBelow hTree.located
    (hTree.names_of_isBelow hBelow hSome) hSome ?_
  intro front hFront
  rcases hFront with ⟨rest, rfl⟩
  by_cases hRest : rest = []
  · rw [hRest, List.append_nil] at hBelow hKind
    exact hTree.short front hBelow hKind
  cases front with
  | nil =>
      exact (locatePieces_eq_ok_iff.mp hTree.located).1.2.2
  | cons first front =>
      rcases Option.ne_none_iff_exists'.mp hSome with
        ⟨n, hNode⟩
      have hLead :
          place ++ first :: front <+:
            place ++ (first :: front ++ rest) :=
        ⟨rest, by simp⟩
      have hDirectory := hTree.rooted _ n hNode _ hLead
        (by simpa using fun h : [] = rest => hRest h.symm)
      apply hTree.short _ _ (.inl hDirectory)
      rcases Location.isBelow_iff.mp hBelow with
        ⟨next, others, hSame, hUpward⟩
      have hNames := List.append_cancel_left hSame
      rw [List.cons_append, List.cons.injEq] at hNames
      rw [← hNames.1] at hUpward
      exact Location.isBelow_iff.mpr ⟨first, front, rfl, hUpward⟩

theorem locate_of_isReached
    (hReached : t.IsReached place other) :
    t.locate (pathTo directory place other) = .ok other :=
  hTree.locate_pathTo hReached.1 (.inl hReached.2)

/- Different places below are reached by different paths. -/
theorem eq_of_components
    {second : Location}
    (hFirst : place.IsBelow other)
    (hSecond : place.IsBelow second)
    (hSome : t.at? other ≠ none)
    (hSomeToo : t.at? second ≠ none)
    (hSame :
      (pathTo directory place other).components =
        (pathTo directory place second).components) :
    other = second := by
  have hText := text_ne_of_locate hTree.located
  rcases hFirst.1 with ⟨names, rfl⟩
  rcases hSecond.1 with ⟨others, rfl⟩
  rw [pathTo_append, pathTo_append,
    FilePath.components_pathBelow hText
      (hTree.names_of_isBelow hFirst hSome),
    FilePath.components_pathBelow hText
      (hTree.names_of_isBelow hSecond hSomeToo)] at hSame
  rw [List.append_cancel_left hSame]

end IsSearchable

end FileTree

------------------------------------------------------------
-- One Listing
------------------------------------------------------------

namespace Search

variable {t : FileTree} {directory : FilePath}
variable {extension : String} {place other : Location}

/-
  After a listing the directories in it wait, the last one
  first, and its files with the extension are found.
-/
theorem foldl_take
    (extension : String)
    (directory : FilePath)
    (entries : List FileTree.Entry)
    (s : Search) :
    entries.foldl (take extension directory) s =
      ⟨((entries.filter
            (fun e => decide e.node.IsDirectory)).map
          (fun e => directory.join ⟨e.name⟩)).reverse ++
            s.pending,
        s.found ++
          (entries.filter (fun e => decide
            (¬ e.node.IsDirectory ∧
              (directory.join ⟨e.name⟩).extension? =
                some extension))).map
            (fun e => directory.join ⟨e.name⟩)⟩ := by
  induction entries generalizing s with
  | nil =>
      simp
  | cons e rest ih =>
      rw [List.foldl_cons, ih]
      unfold take
      by_cases hNode : e.node.IsDirectory
      · simp [hNode]
      · by_cases hExtension :
            (directory.join ⟨e.name⟩).extension? =
              some extension
        · simp [hNode, hExtension]
        · simp [hNode, hExtension]

section Step

variable (hTree : t.IsSearchable directory extension place)
include hTree

/- An entry is taken when it is a file with the extension. -/
theorem isTaken_iff
    (hReached : t.IsReached place other)
    {e : FileTree.Entry}
    (hEntry : e ∈ t.entries other) :
    ¬ e.node.IsDirectory ∧
        ((FileTree.pathTo directory place other).join
          ⟨e.name⟩).extension? = some extension ↔
      t.IsSource extension (other ++ [e.name]) := by
  rcases FileTree.mem_entries_iff.mp hEntry with
    ⟨hUpward, hNode⟩
  have hName := hTree.entries other e.name hUpward
    (by simp [hNode])
  have hText := FileTree.text_ne_of_locate
    (hTree.locate_of_isReached hReached)
  rw [FilePath.extension?_join hName hText]
  unfold FileTree.IsSource FileTree.HasFile
  rw [hNode, List.getLast?_concat, Option.bind_some]
  refine and_congr_left (fun _ => ?_)
  cases e.node <;> simp [Node.IsDirectory]

/- Listing a directory that the search came to. -/
theorem run_step
    (hReached : t.IsReached place other)
    (n : Nat)
    (rest found : List FilePath) :
    run t extension (n + 1)
        ⟨FileTree.pathTo directory place other :: rest, found⟩ =
      run t extension n
        ⟨((t.listedDirectories other).map
            (FileTree.pathTo directory place)).reverse ++ rest,
          found ++
            (t.listedSources extension other).map
              (FileTree.pathTo directory place)⟩ := by
  have hList :
      t.list (FileTree.pathTo directory place other) =
        .ok (t.entries other) := by
    unfold FileTree.list
    rw [hTree.locate_of_isReached hReached]
    dsimp only
    rw [hReached.2]
  have hPath (e : FileTree.Entry) :
      FileTree.pathTo directory place (other ++ [e.name]) =
        (FileTree.pathTo directory place other).join
          ⟨e.name⟩ :=
    FileTree.pathTo_concat hReached.front directory e.name
  rw [run]
  dsimp only
  rw [hList]
  dsimp only
  rw [foldl_take]
  unfold FileTree.listedDirectories FileTree.listedSources
    FileTree.listed
  rw [List.map_map, List.filter_map, List.map_map]
  simp only [Function.comp_def, hPath]
  congr 4
  apply List.filter_congr
  intro e hEntry
  rw [decide_eq_decide]
  exact isTaken_iff hTree hReached hEntry

end Step

------------------------------------------------------------
-- A Whole Search
------------------------------------------------------------

/-
  How many listings waiting directories may take: one for each
  of them, and one for each node below them.
-/
def room
    (t : FileTree)
    (waiting : List Location) : Nat :=
  waiting.length + (waiting.flatMap t.below).length

/- A listing leaves less room to be taken. -/
theorem room_listed
    (hRooted : t.IsRooted)
    (other : Location)
    (rest : List Location) :
    room t ((t.listedDirectories other).reverse ++ rest) <
      room t (other :: rest) := by
  have hBelow := (hRooted.below_perm other).length_eq
  have hTurned :=
    ((t.listedDirectories other).reverse_perm.flatMap_right
      t.below).length_eq
  have hListed :
      (t.listedDirectories other).length ≤
        (t.listed other).length := by
    unfold FileTree.listedDirectories FileTree.listed
    rw [List.length_map, List.length_map]
    exact List.length_filter_le _ _
  rw [List.length_append] at hBelow
  unfold room
  rw [List.flatMap_append, List.length_append,
    List.length_append, List.length_reverse, hTurned,
    List.flatMap_cons, List.length_append, List.length_cons]
  omega

/-
  A listing turns what is to be found below a directory into
  what it found there and what waits below its directories.
-/
theorem sources_listed
    (hRooted : t.IsRooted)
    (extension : String)
    (other : Location)
    (rest : List Location) :
    (t.listedSources extension other ++
        ((t.listedDirectories other).reverse ++ rest).flatMap
          (t.sources extension)).Perm
      ((other :: rest).flatMap (t.sources extension)) := by
  have hTurned :=
    (t.listedDirectories other).reverse_perm.flatMap_right
      (t.sources extension)
  have hParts := hRooted.sources_perm extension other
  rw [List.flatMap_append, List.flatMap_cons,
    ← List.append_assoc]
  exact ((hTurned.append_left _).trans
    hParts.symm).append_right _

/-
  With room for all that waits, the search comes to its end.
  By induction on the listings: what is found together with
  what is below the waiting directories stays the same.
-/
theorem run_eq
    (hTree : t.IsSearchable directory extension place)
    {n : Nat}
    {waiting found : List Location}
    (hWaiting : ∀ other ∈ waiting, t.IsReached place other)
    (hRoom : room t waiting ≤ n) :
    ∃ files : List Location,
      run t extension n
          ⟨waiting.map (FileTree.pathTo directory place),
            found.map (FileTree.pathTo directory place)⟩ =
        .ok ⟨[],
          files.map (FileTree.pathTo directory place)⟩ ∧
        files.Perm
          (found ++ waiting.flatMap (t.sources extension)) := by
  induction n generalizing waiting found with
  | zero =>
      have hNone : waiting = [] := by
        cases waiting with
        | nil =>
            rfl
        | cons other rest =>
            simp [room] at hRoom
      subst hNone
      exact ⟨found, rfl, by simp⟩
  | succ n ih =>
      cases waiting with
      | nil =>
          exact ⟨found, rfl, by simp⟩
      | cons other rest =>
          rw [List.forall_mem_cons] at hWaiting
          rcases hWaiting with ⟨hOther, hRest⟩
          have hNext : ∀ next ∈
              (t.listedDirectories other).reverse ++ rest,
                t.IsReached place next := by
            intro next hNext
            rcases List.mem_append.mp hNext with hNew | hOld
            · exact hOther.listed (List.mem_reverse.mp hNew)
            · exact hRest next hOld
          have hLess := room_listed hTree.rooted other rest
          have hStep := @ih _
            (found ++ t.listedSources extension other) hNext
            (by omega)
          rcases hStep with ⟨files, hRun, hFiles⟩
          refine ⟨files, ?_, hFiles.trans ?_⟩
          · rw [List.map_cons, run_step hTree hOther, ← hRun,
              List.map_append, List.map_append,
              List.map_reverse]
          · rw [List.append_assoc]
            exact (sources_listed hTree.rooted extension other
              rest).append_left found

end Search

------------------------------------------------------------
-- The Order Of Paths
------------------------------------------------------------

namespace FilePath

theorem precedes_trans
    {first second third : FilePath}
    (hFirst : first.Precedes second)
    (hSecond : second.Precedes third) :
    first.Precedes third :=
  List.le_trans hFirst hSecond

theorem precedes_total (first second : FilePath) :
    first.Precedes second ∨ second.Precedes first :=
  List.le_total first.components second.components

/- Sorting the paths of places puts the places in order. -/
theorem exists_mergeSort_map
    (path : Location → FilePath)
    {places : List Location}
    (hNodup : places.Nodup)
    (hPath : ∀ first ∈ places, ∀ second ∈ places,
      (path first).components = (path second).components →
        first = second) :
    ∃ sorted : List Location,
      (places.map path).mergeSort
          (fun first second => decide (first.Precedes second)) =
        sorted.map path ∧
        sorted.Perm places ∧
          sorted.Pairwise (fun first second =>
            (path first).components <
              (path second).components) := by
  let before (first second : Location) : Bool :=
    decide ((path first).Precedes (path second))
  have hPerm : (places.mergeSort before).Perm places :=
    List.mergeSort_perm _ _
  have hOrder :
      (places.mergeSort before).Pairwise
        (fun first second => before first second = true) := by
    apply List.pairwise_mergeSort
    · intro first second third hFirst hSecond
      exact decide_eq_true (precedes_trans
        (of_decide_eq_true hFirst) (of_decide_eq_true hSecond))
    · intro first second
      simpa [before] using
        precedes_total (path first) (path second)
  have hMap :=
    List.map_mergeSort (l := places) (r := before) (f := path)
      (s := fun first second =>
        decide (first.Precedes second))
      (fun _ _ _ _ => rfl)
  refine ⟨places.mergeSort before, hMap.symm, hPerm, ?_⟩
  refine (hOrder.and (hPerm.nodup_iff.mpr hNodup)).imp_of_mem ?_
  rintro first second hFirst hSecond ⟨hBefore, hNe⟩
  have hAtMost : (path first).Precedes (path second) :=
    of_decide_eq_true hBefore
  refine (List.le_iff_lt_or_eq.mp hAtMost).resolve_right ?_
  exact fun hSame => hNe (hPath first (hPerm.subset hFirst)
    second (hPerm.subset hSecond) hSame)

end FilePath

------------------------------------------------------------
-- The Files That Are Found
------------------------------------------------------------

namespace FileTree

variable {t : FileTree} {directory : FilePath}
variable {extension : String} {place : Location}

/- The search ends, and nothing waits any more. -/
theorem IsSearchable.run_start
    (hTree : t.IsSearchable directory extension place) :
    ∃ found : List Location,
      Search.run t extension (t.nodes.size + 1)
          (Search.start directory) =
        .ok ⟨[], found.map (pathTo directory place)⟩ ∧
        found.Perm (t.sources extension place) := by
  have hWaiting :
      ∀ other ∈ [place], t.IsReached place other := by
    rw [List.forall_mem_singleton]
    exact ⟨.inl rfl, hTree.here⟩
  have hRoom : Search.room t [place] ≤ t.nodes.size + 1 := by
    have hSize := t.length_below_le place
    unfold Search.room
    rw [List.flatMap_singleton, List.length_singleton]
    omega
  have hRun := @Search.run_eq t directory extension place hTree
    (t.nodes.size + 1) [place] [] hWaiting hRoom
  rw [List.map_singleton, pathTo_self, List.map_nil,
    List.nil_append, List.flatMap_singleton] at hRun
  exact hRun

/-
  Every file below the directory that has the extension is
  found, once, and in the order of the paths.
-/
theorem IsSearchable.filesWithExtension_eq
    (hTree : t.IsSearchable directory extension place) :
    ∃ files : List Location,
      t.filesWithExtension directory extension =
          .ok (files.map (pathTo directory place)) ∧
        files.Perm (t.sources extension place) ∧
          files.Pairwise (fun first second =>
            (pathTo directory place first).components <
              (pathTo directory place second).components) := by
  rcases hTree.run_start with ⟨found, hRun, hFound⟩
  have hApart :
      ∀ first ∈ found, ∀ second ∈ found,
        (pathTo directory place first).components =
            (pathTo directory place second).components →
          first = second := by
    intro first hFirst second hSecond hSame
    have hIn := mem_sources_iff.mp (hFound.subset hFirst)
    have hToo := mem_sources_iff.mp (hFound.subset hSecond)
    exact hTree.eq_of_components hIn.1 hToo.1 hIn.2.ne_none
      hToo.2.ne_none hSame
  rcases FilePath.exists_mergeSort_map (pathTo directory place)
      (hFound.nodup_iff.mpr (t.nodup_sources extension place))
      hApart with ⟨sorted, hSorted, hPerm, hOrder⟩
  refine ⟨sorted, ?_, hPerm.trans hFound, hOrder⟩
  unfold filesWithExtension
  rw [hRun]
  dsimp only
  rw [hSorted]

end FileTree

end Palimpsest
