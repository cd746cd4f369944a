import Palimpsest.Command.Answer
import Palimpsest.Proofs.Files.Write
import Palimpsest.Proofs.Output.Settle
import Palimpsest.Proofs.Search

/-
  What checking a directory finds.

  Checking reads and scans every file that the search found.
  It counts them, and it keeps those that the scanner rejects,
  with the error and in the order of their paths.  What it
  finds is settled by what is at which place, so that it does
  not depend on the order in which directories are listed.

  Main declarations:
    * `Command.checkFiles_eq`
    * `Command.IsCheckable`
    * `Command.Covers`
    * `Command.Covers.unique`
    * `Command.check_covers_tree`
-/

namespace Palimpsest

/- What is where settles which files have an extension. -/
theorem FileTree.Same.isSource_iff
    {t u : FileTree}
    (hSame : t.Same u)
    (extension : String)
    (place : Location) :
    t.IsSource extension place ↔ u.IsSource extension place := by
  unfold FileTree.IsSource FileTree.HasFile
  rw [hSame place]

namespace Command

variable {t u : FileTree} {directory : FilePath}
variable {extension : String} {place : Location}

------------------------------------------------------------
-- Checking Files
------------------------------------------------------------

/- A file with its error, if it can be read and is malformed. -/
def malformed?
    (t : FileTree)
    (path : FilePath) : Option (FilePath × ScanError) :=
  match t.read path with
  | .error _ => none
  | .ok text =>
      match scan text with
      | .error cause => some (path, cause)
      | .ok _ => none

theorem malformed?_eq_some_iff
    {path file : FilePath}
    {cause : ScanError} :
    malformed? t path = some (file, cause) ↔
      file = path ∧
        ∃ text,
          t.read path = .ok text ∧ scan text = .error cause := by
  unfold malformed?
  cases hRead : t.read path with
  | error fault =>
      simp
  | ok text =>
      cases hScan : scan text with
      | ok found =>
          simp [hScan]
      | error other =>
          simp [hScan, eq_comm]

/- When all files can be read, all are counted and scanned. -/
theorem checkFiles_eq
    {paths : List FilePath}
    (hRead : ∀ path ∈ paths, ∃ text, t.read path = .ok text) :
    checkFiles t paths =
      .ok ⟨paths.length, paths.filterMap (malformed? t)⟩ := by
  induction paths with
  | nil =>
      rfl
  | cons path rest ih =>
      rw [List.forall_mem_cons] at hRead
      rcases hRead.1 with ⟨text, hText⟩
      rw [checkFiles, hText, ih hRead.2, List.filterMap_cons,
        malformed?, hText]
      dsimp only
      cases scan text <;> rfl

------------------------------------------------------------
-- What Checking Finds
------------------------------------------------------------

/-
  A directory that can be searched, and all of whose files
  with the extension hold texts.
-/
structure IsCheckable
    (t : FileTree)
    (directory : FilePath)
    (extension : String)
    (place : Location) : Prop
    extends t.IsSearchable directory extension place where
  text : ∀ other,
    place.IsBelow other → t.IsSource extension other →
      ∃ text, t.at? other = some (Node.ofText text)

/-
  What covers a directory: the number of all files below it
  that have the extension, and those of them that the scanner
  rejects, with its error, each once and in the order of their
  paths.
-/
structure Covers
    (t : FileTree)
    (directory : FilePath)
    (extension : String)
    (place : Location)
    (c : Checked) : Prop where
  count :
    ∃ files : List Location,
      files.Nodup ∧
        (∀ other, other ∈ files ↔
          place.IsBelow other ∧ t.IsSource extension other) ∧
          c.count = files.length
  malformed : ∀ file cause,
    (file, cause) ∈ c.malformed ↔
      ∃ names text,
        place.IsBelow (place ++ names) ∧
          t.IsSource extension (place ++ names) ∧
            t.at? (place ++ names) = some (Node.ofText text) ∧
              scan text = .error cause ∧
                file = directory.pathBelow names
  ordered :
    c.malformed.Pairwise (fun first second =>
      first.1.components < second.1.components)

/- Files that come strictly one after another are different. -/
theorem nodup_of_ordered
    {malformed : List (FilePath × ScanError)}
    (hOrdered : malformed.Pairwise (fun first second =>
      first.1.components < second.1.components)) :
    malformed.Nodup := by
  apply hOrdered.imp
  rintro first second hLess rfl
  exact List.lt_irrefl _ hLess

/- A directory is covered in one way only. -/
theorem Covers.unique
    {c d : Checked}
    (hFirst : Covers t directory extension place c)
    (hSecond : Covers t directory extension place d) :
    c = d := by
  have hCount : c.count = d.count := by
    rcases hFirst.count with ⟨files, hNodup, hFiles, hLength⟩
    rcases hSecond.count with ⟨others, hNodupToo, hOthers, hToo⟩
    have hPerm : files.Perm others := by
      rw [List.perm_ext_iff_of_nodup hNodup hNodupToo]
      exact fun other =>
        (hFiles other).trans (hOthers other).symm
    rw [hLength, hToo, hPerm.length_eq]
  have hMalformed : c.malformed = d.malformed := by
    have hPerm : c.malformed.Perm d.malformed := by
      rw [List.perm_ext_iff_of_nodup
        (nodup_of_ordered hFirst.ordered)
        (nodup_of_ordered hSecond.ordered)]
      exact fun file => (hFirst.malformed _ _).trans
        (hSecond.malformed _ _).symm
    refine hPerm.eq_of_pairwise ?_ hFirst.ordered
      hSecond.ordered
    intro first second _ _ hLess hMore
    exact absurd hMore (List.lt_asymm hLess)
  cases c
  cases d
  dsimp only at hCount hMalformed
  rw [hCount, hMalformed]

/- What is where settles what covers a directory. -/
theorem Covers.same
    {c : Checked}
    (hCovers : Covers t directory extension place c)
    (hSame : t.Same u) :
    Covers u directory extension place c := by
  have hNodes : t.at? = u.at? :=
    funext hSame
  have hSources := hSame.isSource_iff extension
  constructor
  · simpa only [hSources] using hCovers.count
  · simpa only [hSources, hNodes] using hCovers.malformed
  · exact hCovers.ordered

theorem IsCheckable.same
    (hTree : IsCheckable t directory extension place)
    (hSame : t.Same u) :
    IsCheckable u directory extension place := by
  have hNodes : t.at? = u.at? :=
    funext hSame
  have hSources := hSame.isSource_iff extension
  refine ⟨⟨hSame.isRooted hTree.rooted, ?_, ?_, ?_, ?_⟩, ?_⟩
  · simpa only [FileTree.HasEntryNames, hNodes] using
      hTree.entries
  · exact hSame.keepsDirectories.locatePieces hTree.located
  · rw [← hNodes]
    exact hTree.here
  · simpa only [hSources, hNodes] using hTree.short
  · simpa only [hSources, hNodes] using hTree.text

------------------------------------------------------------
-- Checking A Directory
------------------------------------------------------------

namespace IsCheckable

variable (hTree : IsCheckable t directory extension place)
include hTree

/- Each file that the search finds can be read. -/
theorem read_pathTo
    {other : Location}
    {text : String}
    (hBelow : place.IsBelow other)
    (hSource : t.IsSource extension other)
    (hNode : t.at? other = some (Node.ofText text)) :
    t.read (FileTree.pathTo directory place other) =
      .ok text := by
  unfold FileTree.read
  rw [hTree.locate_pathTo (.inr hBelow) (.inr hSource)]
  dsimp only
  rw [hNode]
  unfold Node.ofText
  dsimp only
  rw [FileTree.fromUTF8?_toUTF8]

/- The files that are kept are those that are rejected. -/
theorem mem_malformed_iff
    {files : List Location}
    (hFiles : ∀ other, other ∈ files ↔
      place.IsBelow other ∧ t.IsSource extension other)
    (file : FilePath)
    (cause : ScanError) :
    (file, cause) ∈
        (files.map (FileTree.pathTo directory place)).filterMap
          (malformed? t) ↔
      ∃ names text,
        place.IsBelow (place ++ names) ∧
          t.IsSource extension (place ++ names) ∧
            t.at? (place ++ names) = some (Node.ofText text) ∧
              scan text = .error cause ∧
                file = directory.pathBelow names := by
  rw [List.mem_filterMap]
  constructor
  · rintro ⟨path, hPath, hFault⟩
    rcases List.mem_map.mp hPath with ⟨other, hOther, rfl⟩
    rcases (hFiles other).mp hOther with ⟨hBelow, hSource⟩
    rcases hTree.text other hBelow hSource with ⟨text, hNode⟩
    rcases malformed?_eq_some_iff.mp hFault with
      ⟨rfl, found, hFound, hScan⟩
    rw [hTree.read_pathTo hBelow hSource hNode] at hFound
    cases hFound
    rcases hBelow.1 with ⟨names, rfl⟩
    exact ⟨names, text, hBelow, hSource, hNode, hScan,
      FileTree.pathTo_append directory place names⟩
  · rintro ⟨names, text, hBelow, hSource, hNode, hScan, rfl⟩
    have hRead := hTree.read_pathTo hBelow hSource hNode
    rw [FileTree.pathTo_append] at hRead
    refine ⟨directory.pathBelow names, ?_,
      malformed?_eq_some_iff.mpr ⟨rfl, text, hRead, hScan⟩⟩
    exact List.mem_map.mpr ⟨_, (hFiles _).mpr
      ⟨hBelow, hSource⟩, FileTree.pathTo_append ..⟩

/- Checking succeeds, and it covers the directory. -/
theorem exists_check :
    ∃ c,
      check t directory extension = .ok c ∧
        Covers t directory extension place c := by
  rcases hTree.filesWithExtension_eq with
    ⟨files, hFound, hFiles, hOrder⟩
  have hIn (other : Location) :
      other ∈ files ↔
        place.IsBelow other ∧ t.IsSource extension other :=
    hFiles.mem_iff.trans FileTree.mem_sources_iff
  have hNodup : files.Nodup :=
    hFiles.nodup_iff.mpr (t.nodup_sources extension place)
  have hRead : ∀ path ∈
      files.map (FileTree.pathTo directory place),
        ∃ text, t.read path = .ok text := by
    intro path hPath
    rcases List.mem_map.mp hPath with ⟨other, hOther, rfl⟩
    rcases (hIn other).mp hOther with ⟨hBelow, hSource⟩
    rcases hTree.text other hBelow hSource with ⟨text, hNode⟩
    exact ⟨text, hTree.read_pathTo hBelow hSource hNode⟩
  have hCheck :
      check t directory extension =
        .ok ⟨files.length, (files.map
          (FileTree.pathTo directory place)).filterMap
            (malformed? t)⟩ := by
    unfold check
    rw [hFound]
    dsimp only
    rw [checkFiles_eq hRead, List.length_map]
  refine ⟨_, hCheck, ?_⟩
  constructor
  · exact ⟨files, hNodup, hIn, rfl⟩
  · exact hTree.mem_malformed_iff hIn
  · have hPaths :
        (files.map (FileTree.pathTo directory place)).Pairwise
          (fun first second =>
            first.components < second.components) :=
      List.pairwise_map.mpr hOrder
    refine hPaths.filterMap _ ?_
    rintro path other hLess ⟨first, cause⟩ hFirst
      ⟨second, fault⟩ hSecond
    rcases malformed?_eq_some_iff.mp hFirst with ⟨rfl, _⟩
    rcases malformed?_eq_some_iff.mp hSecond with ⟨rfl, _⟩
    exact hLess

end IsCheckable

/- The answer to a request to check. -/
theorem answer_check
    {c : Checked}
    (hCheck : check t directory extension = .ok c) :
    answer t (.check directory extension) =
      ⟨if c.malformed = [] then 0 else 1, showChecked c, ""⟩ := by
  have hClean : c.IsClean ↔ c.malformed = [] :=
    List.length_eq_zero_iff
  unfold answer
  dsimp only
  rw [hCheck]
  simp only [hClean]
  rfl

/-
  Checking covers the whole directory, in whatever order the
  names in it are listed: the search comes to its end, all
  files with the extension are counted, the malformed ones are
  told, and the exit code is zero exactly when there are none.
-/
theorem check_covers_tree
    {arguments : List String}
    (hArguments :
      parse arguments = .ok (.check directory extension))
    (hTree : IsCheckable t directory extension place) :
    (∃ s,
      Search.run t extension (t.nodes.size + 1)
          (Search.start directory) = .ok s ∧
        s.pending = []) ∧
      ∃ c,
        Covers t directory extension place c ∧
          ∀ u : FileTree, t.Same u →
            check u directory extension = .ok c ∧
              run u arguments =
                ⟨if c.malformed = [] then 0 else 1,
                  showChecked c, ""⟩ := by
  constructor
  · rcases hTree.run_start with ⟨found, hRun, _⟩
    exact ⟨_, hRun, rfl⟩
  rcases hTree.exists_check with ⟨c, _, hCovers⟩
  refine ⟨c, hCovers, ?_⟩
  intro u hSame
  rcases (hTree.same hSame).exists_check with
    ⟨d, hCheck, hOther⟩
  rw [← (hCovers.same hSame).unique hOther] at hCheck
  refine ⟨hCheck, ?_⟩
  unfold run
  rw [hArguments]
  exact answer_check hCheck

------------------------------------------------------------
-- A Directory That Is Named Like A File
------------------------------------------------------------

/- A tree of texts, when all files in its table hold one. -/
theorem exists_text_of_pairs
    (hPairs : ∀ pair ∈ t.nodes.pairs,
      pair.2 = .directory ∨ ∃ text, pair.2 = Node.ofText text)
    (hFile : t.HasFile place) :
    ∃ text, t.at? place = some (Node.ofText text) := by
  rcases hFile with ⟨content, hNode⟩
  have hUpward : ¬ place.IsUpward := by
    apply FileTree.not_isUpward
    rw [hNode]
    simp
  rcases hPairs _ (FileTree.mem_pairs_of_at? hUpward hNode) with
    hDirectory | ⟨text, hText⟩
  · cases hDirectory
  · exact ⟨text, hNode.trans (congrArg some hText)⟩

/- A malformed file below a directory with its extension. -/
def nestedTree : FileTree :=
  ⟨⟨[(["src"], .directory),
      (["src", "p.java"], .directory),
      (["src", "p.java", "B.java"],
        Node.ofText "// ----------- << b >>\nhalf"),
      (["src", "A.java"], Node.ofText "class A \x7b\n\x7d\n"),
      (["src", ".java"],
        Node.ofText "// ----------- << c >>")],
    by decide⟩⟩

theorem isCheckable_nestedTree :
    IsCheckable nestedTree ⟨"src"⟩ "java" ["src"] where
  rooted := FileTree.isRooted_of_pairs (by decide +kernel)
  entries := FileTree.hasEntryNames_of_pairs (by decide +kernel)
  located := rfl
  here := rfl
  short := by
    intro names hBelow hKind
    have hSizes : ∀ pair ∈ nestedTree.nodes.pairs,
        (FilePath.pathBelow ⟨"src"⟩
          (pair.1.drop 1)).text.utf8ByteSize ≤
            FileTree.maxPathSize := by
      decide +kernel
    rcases hKind with hNode | ⟨⟨content, hNode⟩, _⟩ <;>
      exact hSizes _
        (FileTree.mem_pairs_of_at? hBelow.not_isUpward hNode)
  text := by
    intro other _ hSource
    exact exists_text_of_pairs (by simp [nestedTree]) hSource.1

theorem check_covers_tree_nested :
    parse ["check", "src"] = .ok (.check ⟨"src"⟩ "java") ∧
      IsCheckable nestedTree ⟨"src"⟩ "java" ["src"] ∧
        ∃ c,
          Covers nestedTree ⟨"src"⟩ "java" ["src"] c ∧
            (⟨"src/p.java/B.java"⟩,
              ScanError.unterminated ⟨"b", by decide⟩ 1) ∈
                c.malformed ∧
              run nestedTree ["check", "src"] =
                ⟨1, showChecked c, ""⟩ := by
  have hArguments :
      parse ["check", "src"] = .ok (.check ⟨"src"⟩ "java") := by
    decide +kernel
  rcases (check_covers_tree hArguments
      isCheckable_nestedTree).2 with ⟨c, hCovers, hRuns⟩
  have hMalformed :
      (⟨"src/p.java/B.java"⟩,
        ScanError.unterminated ⟨"b", by decide⟩ 1) ∈
          c.malformed := by
    rw [hCovers.malformed]
    exact ⟨["p.java", "B.java"],
      "// ----------- << b >>\nhalf", by decide,
      by decide +kernel, rfl, rfl, by decide +kernel⟩
  have hRun := (hRuns _ (FileTree.Same.refl _)).2
  rw [if_neg (List.ne_nil_of_mem hMalformed)] at hRun
  exact ⟨hArguments, isCheckable_nestedTree, c, hCovers,
    hMalformed, hRun⟩

------------------------------------------------------------
-- A Path That Is Too Long
------------------------------------------------------------

/- The text of a path to a directory, after dots. -/
def dotted : Nat → String
| 0 => "src"
| n + 1 => "./" ++ dotted n

/- A tree with one well formed file. -/
def plainTree : FileTree :=
  ⟨⟨[(["src"], .directory),
      (["src", "A.java"], Node.ofText "class A \x7b\n\x7d\n")],
    by decide⟩⟩

theorem toList_dotted_succ (n : Nat) :
    (dotted (n + 1)).toList =
      ['.'] ++ FilePath.separator :: (dotted n).toList := by
  rw [dotted, String.toList_append]
  rfl

theorem utf8ByteSize_dotted (n : Nat) :
    (dotted n).utf8ByteSize = 2 * n + 3 := by
  induction n with
  | zero =>
      decide
  | succ n ih =>
      have hDot : "./".utf8ByteSize = 2 := by
        decide
      rw [dotted, String.utf8ByteSize_append, ih, hDot]
      omega

theorem zero_not_mem_dotted (n : Nat) :
    '\x00' ∉ (dotted n).toList := by
  induction n with
  | zero =>
      decide
  | succ n ih =>
      rw [toList_dotted_succ]
      simpa [FilePath.separator] using ih

theorem walk_dotted (n : Nat) :
    plainTree.walk [] (FilePath.pieces ⟨dotted n⟩) =
      .ok ["src"] := by
  induction n with
  | zero =>
      rfl
  | succ n ih =>
      have hPieces : FilePath.pieces ⟨dotted (n + 1)⟩ =
          "." :: FilePath.pieces ⟨dotted n⟩ := by
        have hText :
            (FilePath.mk (dotted (n + 1))).text.toList =
              ['.'] ++ FilePath.separator ::
                (FilePath.mk (dotted n)).text.toList :=
          toList_dotted_succ n
        rw [FilePath.pieces_of_toList hText]
        rfl
      rw [hPieces, FileTree.walk]
      exact ih

theorem locate_dotted
    {n : Nat}
    (hShort : 2 * n + 3 ≤ FileTree.maxPathSize) :
    plainTree.locate ⟨dotted n⟩ = .ok ["src"] := by
  have hSize := utf8ByteSize_dotted n
  have hRelative : ¬ FilePath.IsAbsolute ⟨dotted n⟩ := by
    change (dotted n).toList.head? ≠ _
    cases n with
    | zero =>
        decide
    | succ n =>
        rw [toList_dotted_succ, List.singleton_append,
          List.head?_cons]
        decide
  unfold FileTree.locate
  rw [FileTree.locatePieces_eq_ok_iff, Location.start,
    if_neg hRelative]
  refine ⟨⟨zero_not_mem_dotted n, ?_, ?_⟩, walk_dotted n⟩
  · intro hEmpty
    change dotted n = "" at hEmpty
    rw [hEmpty] at hSize
    change 0 = _ at hSize
    omega
  · change (dotted n).utf8ByteSize ≤ _
    rw [hSize]
    exact hShort

/- The one file is found, however long its path is. -/
theorem filesWithExtension_plainTree
    {n : Nat}
    (hShort : 2 * n + 3 ≤ FileTree.maxPathSize) :
    plainTree.filesWithExtension ⟨dotted n⟩ "java" =
      .ok [(FilePath.mk (dotted n)).join ⟨"A.java"⟩] := by
  have hLocate := locate_dotted hShort
  have hList :
      plainTree.list ⟨dotted n⟩ =
        .ok [⟨"A.java",
          Node.ofText "class A \x7b\n\x7d\n"⟩] := by
    unfold FileTree.list
    rw [hLocate]
    rfl
  have hFile :
      ¬ (Node.ofText "class A \x7b\n\x7d\n").IsDirectory :=
    id
  have hExtension :
      ((FilePath.mk (dotted n)).join ⟨"A.java"⟩).extension? =
        some "java" := by
    rw [FilePath.extension?_join (by decide)
      (FileTree.text_ne_of_locate hLocate)]
    decide
  have hTake :
      Search.take "java" ⟨dotted n⟩ ⟨[], []⟩
          ⟨"A.java", Node.ofText "class A \x7b\n\x7d\n"⟩ =
        ⟨[], [(FilePath.mk (dotted n)).join ⟨"A.java"⟩]⟩ := by
    unfold Search.take
    dsimp only
    rw [if_neg hFile, if_pos hExtension]
    rfl
  unfold FileTree.filesWithExtension Search.start
  rw [Search.run]
  dsimp only
  rw [hList]
  dsimp only
  rw [List.foldl_cons, List.foldl_nil, hTake]
  exact congrArg _ (List.mergeSort_singleton _)

/- Checking stops at the first file whose path is too long. -/
theorem check_plainTree
    {n : Nat}
    (hShort : 2 * n + 3 ≤ FileTree.maxPathSize)
    (hLong : FileTree.maxPathSize < 2 * n + 9) :
    check plainTree ⟨dotted n⟩ "java" =
      .error (.read ((FilePath.mk (dotted n)).join ⟨"A.java"⟩)
        .nameTooLong) := by
  have hName : FileTree.IsEntryName "A.java" := by
    decide
  have hSize :
      FileTree.maxPathSize <
        ((FilePath.mk (dotted n)).join
          ⟨"A.java"⟩).text.utf8ByteSize := by
    have hJoin := FilePath.utf8ByteSize_join
      (FilePath.not_isAbsolute_mk hName.slash) ⟨dotted n⟩
    have hDotted := utf8ByteSize_dotted n
    have hLast : "A.java".utf8ByteSize = 6 := by
      decide
    dsimp only at hJoin
    omega
  unfold check
  rw [filesWithExtension_plainTree hShort]
  dsimp only
  rw [checkFiles]
  unfold FileTree.read
  rw [FileTree.locate_join_of_long (locate_dotted hShort)
    hName hSize]

theorem check_fails_of_dotted
    {n : Nat}
    (hShort : 2 * n + 3 ≤ FileTree.maxPathSize)
    (hLong : FileTree.maxPathSize < 2 * n + 9) :
    plainTree.locate ⟨dotted n⟩ = .ok ["src"] ∧
      (∀ c, check plainTree ⟨dotted n⟩ "java" ≠ .ok c) ∧
        (answer plainTree
          (.check ⟨dotted n⟩ "java")).exitCode = 2 := by
  have hCheck := check_plainTree hShort hLong
  refine ⟨locate_dotted hShort, ?_, ?_⟩
  · intro c hOk
    rw [hCheck] at hOk
    cases hOk
  · unfold answer
    dsimp only
    rw [hCheck]
    rfl

/-
  Without short paths checking can fail, though all else is as
  it should be.
-/
theorem check_fails_of_long_path :
    plainTree.IsRooted ∧
      plainTree.HasEntryNames ∧
      plainTree.at? ["src"] = some .directory ∧
      (∀ other,
        Location.IsBelow ["src"] other →
          plainTree.IsSource "java" other →
            ∃ text,
              plainTree.at? other =
                some (Node.ofText text)) ∧
      plainTree.locate ⟨dotted 2045⟩ = .ok ["src"] ∧
      (∀ c, check plainTree ⟨dotted 2045⟩ "java" ≠ .ok c) ∧
        (answer plainTree
          (.check ⟨dotted 2045⟩ "java")).exitCode = 2 := by
  refine ⟨FileTree.isRooted_of_pairs (by decide +kernel),
    FileTree.hasEntryNames_of_pairs (by decide +kernel), rfl,
    ?_, check_fails_of_dotted (by decide) (by decide)⟩
  intro other _ hSource
  exact exists_text_of_pairs (by simp [plainTree]) hSource.1

end Command

end Palimpsest
