import Palimpsest.Proofs.Files.Below
import Palimpsest.Proofs.Files.Extension

/-
  What the path of an entry leads to.

  A name that can stand in a directory is one piece of a path.
  Joined to a path that leads to a directory it leads to what
  has that name there, unless the whole path is too long.  Its
  extension is that of the name alone, whatever dots the path
  before it has, and it is the last component of the path.

  Main declarations:
    * `FileTree.IsEntryName`
    * `FileTree.locate_join`
    * `FilePath.extension?_join`
    * `FilePath.components_join`
    * `FilePath.pathBelow`
    * `FileTree.IsRooted.locate_pathBelow`
-/

namespace Palimpsest

------------------------------------------------------------
-- Names Of Entries
------------------------------------------------------------

namespace FileTree

/- A name that can stand in a directory. -/
structure IsEntryName (name : String) : Prop where
  notIdle : ¬ FilePath.IsIdle name
  notUp : name ≠ ".."
  slash : FilePath.separator ∉ name.toList
  zero : '\x00' ∉ name.toList
  size : name.utf8ByteSize ≤ maxNameSize

theorem isEntryName_iff {name : String} :
    IsEntryName name ↔
      ¬ FilePath.IsIdle name ∧ name ≠ ".." ∧
        FilePath.separator ∉ name.toList ∧
          '\x00' ∉ name.toList ∧
            name.utf8ByteSize ≤ maxNameSize :=
  ⟨fun h => ⟨h.notIdle, h.notUp, h.slash, h.zero, h.size⟩,
    fun ⟨hIdle, hUp, hSlash, hZero, hSize⟩ =>
      ⟨hIdle, hUp, hSlash, hZero, hSize⟩⟩

instance (name : String) : Decidable (IsEntryName name) :=
  decidable_of_iff' _ isEntryName_iff

/- All that is in a directory has a name that can be there. -/
def HasEntryNames (t : FileTree) : Prop :=
  ∀ (place : Location) (name : String),
    ¬ Location.IsUpward (place ++ [name]) →
      t.at? (place ++ [name]) ≠ none →
        IsEntryName name

theorem hasEntryNames_of_pairs
    {t : FileTree}
    (hPairs : ∀ pair ∈ t.nodes.pairs,
      ∀ name ∈ pair.1.getLast?, IsEntryName name) :
    t.HasEntryNames := by
  intro place name hUpward hSome
  rcases Option.ne_none_iff_exists'.mp hSome with ⟨n, hNode⟩
  exact hPairs _ (mem_pairs_of_at? hUpward hNode) name
    List.getLast?_concat

end FileTree

------------------------------------------------------------
-- Joining A Name
------------------------------------------------------------

namespace FilePath

variable {base : FilePath} {name : String}

/- A joined path is at least as long as its parts. -/
theorem utf8ByteSize_join
    {path : FilePath}
    (hPath : ¬ path.IsAbsolute)
    (base : FilePath) :
    base.text.utf8ByteSize + path.text.utf8ByteSize ≤
      (base.join path).text.utf8ByteSize := by
  unfold join
  rw [if_neg hPath]
  split
  · rw [String.utf8ByteSize_append]
  · rw [String.utf8ByteSize_append, String.utf8ByteSize_append]
    omega

/-
  A joined name is the last piece of a path.  The pieces in
  front of it are those of the base, less the empty one behind
  a slash at its end.
-/
theorem exists_pieces_join_name
    (hName : separator ∉ name.toList)
    (hBase : base.text ≠ "") :
    ∃ front,
      front ≠ [] ∧
        (base.join ⟨name⟩).pieces = front ++ [name] ∧
          (base.pieces = front ∨ base.pieces = front ++ [""]) :=
    by
  have hRelative := not_isAbsolute_mk hName
  rcases List.eq_nil_or_concat base.text.toList with
    hNil | ⟨chars, last, hLast⟩
  · exact absurd (String.toList_inj.mp hNil) hBase
  rw [List.concat_eq_append] at hLast
  by_cases hEnd : last = separator
  · subst hEnd
    have hCut := pieces_join_of_separator hRelative hLast
    rw [pieces_mk hName] at hCut
    exact ⟨_, Text.splitAt_ne_nil _, hCut.1, .inr hCut.2⟩
  · have hJoin :=
      pieces_join_of_ne_separator hRelative hLast hEnd
    rw [pieces_mk hName] at hJoin
    exact ⟨_, Text.splitAt_ne_nil _, hJoin, .inl rfl⟩

/- The extension of a joined path is that of the name. -/
theorem extension?_join
    (hName : FileTree.IsEntryName name)
    (hBase : base.text ≠ "") :
    (base.join ⟨name⟩).extension? = (cutExtension name).2 := by
  rcases exists_pieces_join_name hName.slash hBase with
    ⟨front, _, hPieces, _⟩
  have hKept :
      dropIdleEnd (base.join ⟨name⟩).pieces = front ++ [name] :=
    by
    rw [hPieces, dropIdleEnd_eq_rdropWhile,
      List.rdropWhile_concat_neg _ _ _
        (by simpa using hName.notIdle)]
  have hFile : (base.join ⟨name⟩).fileName? = some name := by
    rw [fileName?_eq, hKept]
    simp [Option.filter, hName.notUp]
  unfold extension?
  rw [hFile]
  rfl

/- What a path starts from, by its first piece. -/
theorem start_split (path : FilePath) :
    path.split.start =
      if path.IsAbsolute then "/"
      else if path.pieces.head? = some "." then "."
      else "" := by
  rcases path.split_cases with
    ⟨rest, hRest, hPieces, hSplit⟩ | ⟨hPieces, hSplit⟩ |
      ⟨hPieces, hSplit⟩ | ⟨rest, _, hPieces, hSplit⟩ |
      ⟨first, rest, hFirst, hPieces, hSplit⟩
  · rw [hSplit, if_pos
      (isAbsolute_iff.mpr ⟨rest, hRest, hPieces⟩)]
  all_goals
    rw [hSplit, if_neg, hPieces]
  · simp
  · rw [isAbsolute_iff, hPieces]
    simp
  · simp
  · rw [isAbsolute_iff, hPieces]
    simp
  · simp
  · rw [isAbsolute_iff, hPieces]
    simp
  · simp [show first ≠ "." from fun h => hFirst (.inr h)]
  · rw [isAbsolute_iff, hPieces]
    rintro ⟨others, _, hSame⟩
    exact hFirst (.inl (List.cons.inj hSame).1)

/- A joined name is one more component. -/
theorem components_join
    (hName : FileTree.IsEntryName name)
    (hBase : base.text ≠ "") :
    (base.join ⟨name⟩).components = base.components ++ [name] :=
    by
  have hRelative := not_isAbsolute_mk hName.slash
  rcases exists_pieces_join_name hName.slash hBase with
    ⟨front, hFront, hPieces, hOld⟩
  have hHead :
      (base.join ⟨name⟩).pieces.head? = base.pieces.head? := by
    rw [hPieces, List.head?_append_of_ne_nil _ hFront]
    rcases hOld with hSame | hMore
    · rw [hSame]
    · rw [hMore, List.head?_append_of_ne_nil _ hFront]
  have hAbsolute :
      (base.join ⟨name⟩).IsAbsolute ↔ base.IsAbsolute := by
    have hStart := start_join hRelative base
    unfold Location.start at hStart
    by_cases hJoin : (base.join ⟨name⟩).IsAbsolute <;>
      by_cases hHere : base.IsAbsolute <;>
        simp [hJoin, hHere, Location.top] at hStart ⊢
  have hLast : names ⟨name⟩ = [name] := by
    unfold names
    rw [pieces_mk hName.slash]
    exact namesOf_eq_self (by simpa using hName.notIdle)
  unfold components
  rw [start_split, start_split, hHead, names_join hRelative,
    hLast, ← List.append_assoc]
  simp only [hAbsolute]

end FilePath

namespace FileTree

variable {t : FileTree} {base : FilePath} {name : String}
variable {place : Location}

theorem text_ne_of_locate
    {path : FilePath}
    (hLocate : t.locate path = .ok place) :
    path.text ≠ "" :=
  (locatePieces_eq_ok_iff.mp hLocate).1.2.1

/- A joined path has no zero character. -/
theorem zero_not_mem_join
    (hName : '\x00' ∉ name.toList)
    (hBase : '\x00' ∉ base.text.toList) :
    '\x00' ∉ (base.join ⟨name⟩).text.toList := by
  unfold FilePath.join
  split
  · exact hName
  · split
    · simp [hName, hBase]
    · simp [hName, hBase]

theorem text_join_ne
    (hName : IsEntryName name)
    (base : FilePath) :
    (base.join ⟨name⟩).text ≠ "" := by
  have hSome : name ≠ "" := fun h => hName.notIdle (.inl h)
  unfold FilePath.join
  split
  · exact hSome
  · split <;> simp [hSome]

/- A name joined to a directory leads to what has that name. -/
theorem locate_join
    (hBase : t.locate base = .ok place)
    (hHere : t.at? place = some .directory)
    (hName : IsEntryName name)
    (hSize :
      (base.join ⟨name⟩).text.utf8ByteSize ≤ maxPathSize) :
    t.locate (base.join ⟨name⟩) = .ok (place ++ [name]) := by
  have hText := text_ne_of_locate hBase
  unfold locate at hBase ⊢
  rw [locatePieces_eq_ok_iff] at hBase ⊢
  rcases hBase with ⟨hLegal, hWalk⟩
  refine ⟨⟨zero_not_mem_join hName.zero hLegal.1,
    text_join_ne hName base, hSize⟩, ?_⟩
  rcases FilePath.exists_pieces_join_name hName.slash hText
    with ⟨front, _, hPieces, hOld⟩
  have hFront :
      t.walk (Location.start base) front = .ok place := by
    rcases hOld with hSame | hMore
    · rw [← hSame]
      exact hWalk
    · rw [hMore, walk_append_eq_ok_iff] at hWalk
      rcases hWalk with ⟨middle, hFirst, hLast⟩
      have hStay := (walk_replicate_eq_ok_iff.mp
        (show t.walk middle (List.replicate 1 "") = .ok place
          from hLast)).1
      rw [hStay]
      exact hFirst
  rw [FilePath.start_join
    (FilePath.not_isAbsolute_mk hName.slash), hPieces,
    walk_append_of_ok hFront, walk_cons_eq_ok_iff,
    Location.advance_of_name hName.notIdle hName.notUp]
  exact ⟨hHere, hName.size, rfl⟩

/- A joined path that is too long leads nowhere. -/
theorem locate_join_of_long
    (hBase : t.locate base = .ok place)
    (hName : IsEntryName name)
    (hSize :
      maxPathSize < (base.join ⟨name⟩).text.utf8ByteSize) :
    t.locate (base.join ⟨name⟩) = .error .nameTooLong := by
  unfold locate at hBase
  rw [locatePieces_eq_ok_iff] at hBase
  unfold locate locatePieces
  rw [if_neg (zero_not_mem_join hName.zero hBase.1.1),
    if_neg (text_join_ne hName base), if_pos hSize]

end FileTree

------------------------------------------------------------
-- Paths Below A Directory
------------------------------------------------------------

namespace FilePath

variable {directory : FilePath} {names : List String}

/- The path that leads from a directory along names. -/
def pathBelow
    (directory : FilePath)
    (names : List String) : FilePath :=
  names.foldl (fun path name => path.join ⟨name⟩) directory

theorem pathBelow_concat
    (directory : FilePath)
    (names : List String)
    (name : String) :
    directory.pathBelow (names ++ [name]) =
      (directory.pathBelow names).join ⟨name⟩ := by
  unfold pathBelow
  rw [List.foldl_append]
  rfl

theorem text_pathBelow_ne
    (hDirectory : directory.text ≠ "")
    (hNames : ∀ name ∈ names, FileTree.IsEntryName name) :
    (directory.pathBelow names).text ≠ "" := by
  rcases List.eq_nil_or_concat names with
    rfl | ⟨front, last, rfl⟩
  · exact hDirectory
  · rw [List.concat_eq_append] at hNames ⊢
    rw [pathBelow_concat]
    exact FileTree.text_join_ne (hNames last (by simp)) _

/- The names are the last components of the path. -/
theorem components_pathBelow
    (hDirectory : directory.text ≠ "")
    (hNames : ∀ name ∈ names, FileTree.IsEntryName name) :
    (directory.pathBelow names).components =
      directory.components ++ names := by
  induction names using List.reverseRecOn with
  | nil =>
      exact (List.append_nil _).symm
  | append_singleton front last ih =>
      rw [List.forall_mem_append,
        List.forall_mem_singleton] at hNames
      rw [pathBelow_concat, components_join hNames.2
        (text_pathBelow_ne hDirectory hNames.1),
        ih hNames.1, List.append_assoc]

end FilePath

namespace FileTree

variable {t : FileTree} {directory : FilePath}
variable {place : Location} {names : List String}

/- What is below a directory has names that can be there. -/
theorem HasEntryNames.of_isBelow
    (hEntries : t.HasEntryNames)
    (hRooted : t.IsRooted)
    (hBelow : place.IsBelow (place ++ names))
    (hSome : t.at? (place ++ names) ≠ none) :
    ∀ name ∈ names, IsEntryName name := by
  intro name hName
  rcases List.append_of_mem hName with ⟨front, rest, rfl⟩
  rcases Location.isBelow_iff.mp hBelow with
    ⟨first, others, hSame, hUpward⟩
  have hNames := List.append_cancel_left hSame
  have hLead :
      place ++ [first] <+: place ++ front ++ [name] := by
    rw [List.append_assoc, List.prefix_append_right_inj]
    cases front with
    | nil =>
        rw [(List.cons.inj hNames).1]
        exact List.prefix_rfl
    | cons head front =>
        rw [(List.cons.inj hNames).1]
        simp
  refine hEntries (place ++ front) name
    (fun hUp => hUpward (isUpward_of_front hUp hLead)) ?_
  rcases Option.ne_none_iff_exists'.mp hSome with ⟨n, hNode⟩
  by_cases hRest : rest = []
  · rw [hRest] at hNode
    simp [hNode]
  · have hFront :
        place ++ front ++ [name] <+:
          place ++ (front ++ name :: rest) := by
      simp
    have hNe :
        place ++ front ++ [name] ≠
          place ++ (front ++ name :: rest) := by
      simpa using fun h : [] = rest => hRest h.symm
    rw [hRooted _ n hNode _ hFront hNe]
    simp

/-
  The path along names leads to what is there, when each of
  the directories on the way has a path that is not too long.
-/
theorem IsRooted.locate_pathBelow
    (hRooted : t.IsRooted)
    (hDirectory : t.locate directory = .ok place)
    (hNames : ∀ name ∈ names, IsEntryName name)
    (hSome : t.at? (place ++ names) ≠ none)
    (hSizes : ∀ front,
      front <+: names →
        (directory.pathBelow front).text.utf8ByteSize ≤
          maxPathSize) :
    t.locate (directory.pathBelow names) =
      .ok (place ++ names) := by
  induction names using List.reverseRecOn with
  | nil =>
      rw [List.append_nil]
      exact hDirectory
  | append_singleton front last ih =>
      rw [List.forall_mem_append,
        List.forall_mem_singleton] at hNames
      rcases Option.ne_none_iff_exists'.mp hSome with
        ⟨n, hNode⟩
      have hFront : t.at? (place ++ front) = some .directory :=
        hRooted _ n hNode _ (by simp) (by simp)
      have hBase := ih hNames.1 (by simp [hFront])
        (fun lead hLead => hSizes lead
          (hLead.trans (List.prefix_append _ _)))
      have hSize := hSizes _ List.prefix_rfl
      rw [FilePath.pathBelow_concat] at hSize ⊢
      rw [locate_join hBase hFront hNames.2 hSize,
        List.append_assoc]

end FileTree

end Palimpsest
