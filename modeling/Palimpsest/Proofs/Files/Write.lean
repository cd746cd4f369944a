import Palimpsest.Proofs.Files.Walk

/-
  What writing a file and making a directory leave behind.

  After a text was written to a path, reading the path gives
  the text, and writing the same text again changes nothing.
  After a directory was made it is there, and making it again
  changes nothing.

  Main declarations:
    * `FileTree.write_eq_ok_iff`
    * `FileTree.Holds`
    * `FileTree.Holds.read`
    * `FileTree.Holds.write`
    * `FileTree.isDirectory_of_ensureDir`
    * `FileTree.ensureDir_of_isDirectory`
-/

namespace Palimpsest

namespace FileTree

variable {t u : FileTree} {path : FilePath} {text : String}

------------------------------------------------------------
-- Putting
------------------------------------------------------------

/- Putting what is there changes nothing. -/
theorem put_of_at?
    {place : Location}
    {n : Node}
    (hPlace : ¬ place.IsUpward)
    (hNode : t.at? place = some n) :
    t.put place n = t := by
  unfold at? at hNode
  rw [if_neg hPlace] at hNode
  unfold put
  rw [Table.insert_of_find? hNode]

------------------------------------------------------------
-- Writing Files
------------------------------------------------------------

/-
  Writing succeeds where a path leads to no directory, and
  then the file is put there.
-/
theorem write_eq_ok_iff :
    t.write path text = (.ok (), u) ↔
      ∃ place,
        t.locateTrimmed path = .ok place ∧
          ¬ EndsInSlash path ∧
            t.at? place ≠ some .directory ∧
              u = t.put place (Node.ofText text) := by
  unfold write store
  cases hLocate : t.locateTrimmed path with
  | error fault =>
      simp
  | ok place =>
      by_cases hSlash : EndsInSlash path
      · simp [hSlash]
      · cases hNode : t.at? place with
        | none =>
            simp [hSlash, hNode, Node.ofText, eq_comm]
        | some n =>
            cases n <;>
              simp [hSlash, hNode, Node.ofText, eq_comm]

/- The path leads to a file that holds the text. -/
def Holds
    (t : FileTree)
    (path : FilePath)
    (text : String) : Prop :=
  ∃ place,
    t.locateTrimmed path = .ok place ∧
      ¬ EndsInSlash path ∧
        t.at? place = some (Node.ofText text)

/- The bytes of a text can be read as that text. -/
theorem fromUTF8?_toUTF8 (text : String) :
    String.fromUTF8? text.toUTF8 = some text := by
  have hValid : text.toUTF8.IsValidUTF8 :=
    text.isValidUTF8
  exact dif_pos hValid

/- A file that a path leads to can be read. -/
theorem Holds.read_eq_ok
    (hHolds : t.Holds path text) :
    t.read path = .ok text := by
  rcases hHolds with ⟨place, hLocate, hSlash, hNode⟩
  have hFile : t.at? place ≠ some .directory := by
    rw [hNode]
    simp [Node.ofText]
  unfold FileTree.read
  rw [locate_of_not_directory hLocate hSlash hFile]
  dsimp only
  rw [hNode]
  unfold Node.ofText
  dsimp only
  rw [fromUTF8?_toUTF8]

/- Reading a path gives the text that it holds. -/
theorem Holds.read
    (hHolds : t.Holds path text) :
    t.readIfExists path = .ok (some text) := by
  unfold readIfExists
  rw [hHolds.read_eq_ok]

/- Writing what a path holds changes nothing. -/
theorem Holds.write
    (hHolds : t.Holds path text) :
    t.write path text = (.ok (), t) := by
  rcases hHolds with ⟨place, hLocate, hSlash, hNode⟩
  have hFile : t.at? place ≠ some .directory := by
    rw [hNode]
    simp [Node.ofText]
  rw [write_eq_ok_iff]
  exact ⟨place, hLocate, hSlash, hFile,
    (put_of_at? (not_isUpward hFile) hNode).symm⟩

/- A written path holds the text. -/
theorem holds_of_write
    (hWrite : t.write path text = (.ok (), u)) :
    u.Holds path text := by
  rcases write_eq_ok_iff.mp hWrite with
    ⟨place, hLocate, hSlash, hNode, rfl⟩
  refine ⟨place, ?_, hSlash, ?_⟩
  · exact (keepsDirectories_put hNode _).locatePieces hLocate
  · rw [at?_put (not_isUpward hNode), if_pos rfl]

/- Writing keeps all directories. -/
theorem keepsDirectories_write
    (hWrite : t.write path text = (.ok (), u)) :
    t.KeepsDirectories u := by
  rcases write_eq_ok_iff.mp hWrite with
    ⟨place, _, _, hNode, rfl⟩
  exact keepsDirectories_put hNode _

------------------------------------------------------------
-- Making Directories
------------------------------------------------------------

/- A directory that was made is there. -/
theorem isDirectory_of_makeDir
    (hMake : t.makeDir path = .ok u) :
    u.IsDirectory path := by
  unfold makeDir at hMake
  cases hLocate : t.locateTrimmed path with
  | error fault =>
      simp [hLocate] at hMake
  | ok place =>
      rw [hLocate] at hMake
      dsimp only at hMake
      cases hNode : t.at? place with
      | some n =>
          simp [hNode] at hMake
      | none =>
          rw [hNode] at hMake
          cases hMake
          have hFree : t.at? place ≠ some .directory := by
            rw [hNode]
            simp
          have hMade :
              (t.put place .directory).at? place =
                some .directory := by
            rw [at?_put (not_isUpward hFree), if_pos rfl]
          rw [isDirectory_iff]
          exact ⟨place,
            locate_of_directory
              ((keepsDirectories_put hFree _).locatePieces
                hLocate) hMade, hMade⟩

/- A directory that is there cannot be made. -/
theorem makeDir_of_isDirectory
    (hPath : t.IsDirectory path) :
    t.makeDir path = .error .alreadyExists := by
  rcases isDirectory_iff.mp hPath with
    ⟨place, hLocate, hNode⟩
  unfold makeDir
  rw [locateTrimmed_of_locate hLocate]
  dsimp only
  rw [hNode]

/- After a directory was made if need be, it is there. -/
theorem isDirectory_of_makeDirIfAbsent
    (hMake : t.makeDirIfAbsent path = (.ok (), u)) :
    u.IsDirectory path := by
  unfold makeDirIfAbsent at hMake
  cases hDir : t.makeDir path with
  | ok made =>
      rw [hDir] at hMake
      cases hMake
      exact isDirectory_of_makeDir hDir
  | error fault =>
      rw [hDir] at hMake
      dsimp only at hMake
      by_cases hPath : t.IsDirectory path
      · rw [if_pos hPath] at hMake
        cases hMake
        exact hPath
      · rw [if_neg hPath] at hMake
        cases hMake

/- Making a directory that is there changes nothing. -/
theorem makeDirIfAbsent_of_isDirectory
    (hPath : t.IsDirectory path) :
    t.makeDirIfAbsent path = (.ok (), t) := by
  unfold makeDirIfAbsent
  rw [makeDir_of_isDirectory hPath]
  exact if_pos hPath

/- After a directory was made with all that leads to it. -/
theorem isDirectory_of_ensureDir
    (hPath : path.text ≠ "")
    (hMake : t.ensureDir path = (.ok (), u)) :
    u.IsDirectory path := by
  unfold ensureDir at hMake
  cases hParents : parents path with
  | nil =>
      rw [hParents, ensureDirFrom, if_neg hPath] at hMake
      exact isDirectory_of_makeDirIfAbsent hMake
  | cons parent rest =>
      rw [hParents, ensureDirFrom, if_neg hPath] at hMake
      split at hMake
      · split at hMake
        · cases hMake
        · exact isDirectory_of_makeDirIfAbsent hMake
      · exact isDirectory_of_makeDirIfAbsent hMake

theorem ensureDirFrom_of_isDirectory
    (hPath : t.IsDirectory path)
    (parents : List FilePath) :
    ensureDirFrom path parents t = (.ok (), t) := by
  cases parents with
  | nil =>
      rw [ensureDirFrom]
      split
      · rfl
      · exact makeDirIfAbsent_of_isDirectory hPath
  | cons parent rest =>
      rw [ensureDirFrom, makeDir_of_isDirectory hPath]
      split
      · rfl
      · exact makeDirIfAbsent_of_isDirectory hPath

/- Making a directory again changes nothing. -/
theorem ensureDir_of_isDirectory
    (hPath : t.IsDirectory path) :
    t.ensureDir path = (.ok (), t) :=
  ensureDirFrom_of_isDirectory hPath (parents path)

end FileTree

end Palimpsest
