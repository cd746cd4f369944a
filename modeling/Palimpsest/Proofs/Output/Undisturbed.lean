import Palimpsest.Proofs.Files.Frame
import Palimpsest.Proofs.Output.Sibling

/-
  What the other units of a pass leave to a unit.

  Between the actions of a unit, other units only add
  directories and write files of their own.  So the unit reads
  what could be read when the pass started, finds its file as
  it was then, can make its directory if it could be made
  then, and what it has written is there in the end.

  Main declarations:
    * `Task.Undisturbed`
    * `Task.Takes.undisturbed`
    * `Task.Undisturbed.readIfExists`
    * `Task.Undisturbed.holds`
    * `Task.Undisturbed.ensureDir_iff`
    * `Task.Undisturbed.isDirectory_iff`
    * `FileTree.created_of_create`
-/

namespace Palimpsest

------------------------------------------------------------
-- Units With Other Files
------------------------------------------------------------

namespace Task

variable {e : Emitter} {task other : Task} {a b : Action}
variable {t u v : FileTree} {path : FilePath} {text : String}

/-
  Between two trees, directories were added and nothing was
  changed where a task looks, and a tree that is well-formed
  has stayed so.
-/
structure Undisturbed
    (e : Emitter)
    (task : Task)
    (t u : FileTree) : Prop where
  rooted : t.IsRooted → u.IsRooted
  directories : t.KeepsDirectories u
  alike : ∀ a, task.Takes e a → a.Alike t u

theorem Undisturbed.refl
    (e : Emitter)
    (task : Task)
    (t : FileTree) :
    task.Undisturbed e t t :=
  ⟨id, .refl t, fun a _ => .refl a t⟩

theorem Undisturbed.trans
    (hFirst : task.Undisturbed e t u)
    (hSecond : task.Undisturbed e u v) :
    task.Undisturbed e t v :=
  ⟨hSecond.rooted ∘ hFirst.rooted,
    hFirst.directories.trans hSecond.directories,
    fun a hTakes =>
      (hFirst.alike a hTakes).trans (hSecond.alike a hTakes)⟩

/- A task with another file disturbs nothing. -/
theorem Takes.undisturbed
    (hTakes : other.Takes e b)
    (hRegular : e.IsRegular)
    (hRoots : e.HasSeparateRoots)
    (hName : task.HasParsedName)
    (hOtherName : other.HasParsedName)
    (hDiffers : task.Differs e other)
    (t : FileTree) :
    task.Undisturbed e t (b.perform t).2 := by
  refine ⟨fun hRooted => Action.isRooted_perform hRooted b,
    b.keepsDirectories_perform t, fun a hOwn => ?_⟩
  rcases hTakes.isPlain_or_read hRegular hOtherName with
    hPlain | ⟨path, rfl⟩
  · exact (hOwn.ignores hTakes hRegular hRoots hName
      hOtherName hDiffers).alike hPlain t
  · exact .refl a t

/- What a unit reads later could be read before. -/
theorem Undisturbed.readIfExists
    {unit : SourceUnit}
    {relative : FilePath}
    {previous : Option String}
    (hBefore : (Task.source unit).Undisturbed e t u)
    (hRegular : e.IsRegular)
    (hName : (Task.source unit).HasParsedName)
    (hRooted : t.IsRooted)
    (hFile : unit.relative? e = some relative)
    (hRead : u.readIfExists (e.source relative) = .ok previous) :
    t.readIfExists (e.source relative) = .ok previous := by
  have hPath : relative.IsUnitFile :=
    isUnitFile_of_file? hRegular hName hFile
  have hAlike := hBefore.alike _ (.read hFile)
  exact hRooted.readIfExists_of_later
    (hPath.join hRegular.base).1
    (FilePath.endsInName_join hPath.not_isIdle _)
    hBefore.directories
    (fun place hFront hNe =>
      (hAlike.passed place ⟨hFront, hNe⟩).mp)
    (hAlike.watched _ rfl) hRead

/- Where a template is put, everything stays as it is. -/
theorem Undisturbed.at?_template
    {i : Info}
    {s : String}
    {relative : FilePath}
    (hBetween : (Task.template i s).Undisturbed e t u)
    (hFile : (Task.template i s).file? e = some relative) :
    u.at? (e.destination relative).place =
      t.at? (e.destination relative).place :=
  ((hBetween.alike _ (.create hFile)).watched _ rfl).symm

/- A text that a task has written is held from then on. -/
theorem Undisturbed.holds
    (hAfter : task.Undisturbed e t u)
    (hTakes : task.Takes e a)
    (hWatches : a.Watches path.place)
    (hForward : path.IsForward)
    (hHolds : t.Holds path text) :
    u.Holds path text := by
  rcases hHolds with ⟨place, hLocate, hSlash, hNode⟩
  have hPlace :=
    FileTree.eq_place_of_locateTrimmed hForward hLocate
  subst hPlace
  have hSame := (hAfter.alike a hTakes).watched _ hWatches
  exact ⟨_, hAfter.directories.locatePieces hLocate, hSlash,
    hSame ▸ hNode⟩

end Task

------------------------------------------------------------
-- Making A Directory
------------------------------------------------------------

namespace FileTree

variable {t u v : FileTree} {path : FilePath} {text : String}

/-
  Making a directory succeeds exactly when the directory is
  there afterwards, and also later on, when others have added
  directories and no file on the way.
-/
theorem ensureDir_eq_ok_iff
    (hForward : path.IsForward)
    (hEnds : path.EndsInName)
    (hFirst : t.IsRooted)
    (hSecond : u.IsRooted)
    (hKeeps : (t.ensureDir path).2.KeepsDirectories u)
    (hAlike :
      (Action.ensureDir path).Alike (t.ensureDir path).2 u) :
    (t.ensureDir path).1 = .ok () ↔ u.IsDirectory path := by
  have hText : path.text ≠ "" := by
    rcases hEnds.exists_names with ⟨front, last, hNames⟩
    apply text_ne_of_names
    rw [hNames]
    simp
  constructor
  · intro hOk
    exact hKeeps.isDirectory
      (isDirectory_of_ensureDir hText (Prod.ext hOk rfl))
  · intro hThere
    have hFiles := (addsDirectories_ensureDir path t).keepsFiles
    have hMade :
        (Action.ensureDir path).Alike t
          (t.ensureDir path).2 := by
      refine ⟨fun _ hWatched => hWatched.elim,
        fun place _ => ?_⟩
      constructor
      · rintro ⟨content, hFile⟩
        exact ⟨content, (hFiles place content).mpr hFile⟩
      · rintro ⟨content, hFile⟩
        exact ⟨content, (hFiles place content).mp hFile⟩
    have hSame := Action.ensureDir_alike
      ⟨hForward, .inr hEnds⟩ hFirst hSecond
      (hMade.trans hAlike)
    rw [hSame.1, ensureDir_of_isDirectory hThere]

end FileTree

namespace Task

variable {e : Emitter} {name : QualifiedName}
variable {module : Fragment} {t u v : FileTree}

/- A module can make its directory if it could be made. -/
theorem Undisturbed.ensureDir_iff
    (hBefore : (directory module name).Undisturbed e t u)
    (hRegular : e.IsRegular)
    (hName : name.IsParsed)
    (hRooted : t.IsRooted) :
    (u.ensureDir (e.destination name.dirPath)).1 = .ok () ↔
      (t.ensureDir (e.destination name.dirPath)).1 =
        .ok () := by
  have hPath := Emitter.isUnitDirectory_dirPath hName
  have hSame := Action.ensureDir_alike
    ⟨(hPath.join hRegular.root).1,
      .inr (FilePath.endsInName_join hPath.not_isIdle _)⟩
    hRooted (hBefore.rooted hRooted)
    (hBefore.alike _ .directory)
  rw [show (t.ensureDir (e.destination name.dirPath)).1 = _
    from hSame.1]
  rfl

/- It was made exactly if it is there in the end. -/
theorem Undisturbed.isDirectory_iff
    (hAfter :
      (directory module name).Undisturbed e
        (u.ensureDir (e.destination name.dirPath)).2 v)
    (hRegular : e.IsRegular)
    (hName : name.IsParsed)
    (hRooted : u.IsRooted) :
    v.IsDirectory (e.destination name.dirPath) ↔
      (u.ensureDir (e.destination name.dirPath)).1 =
        .ok () := by
  have hPath := Emitter.isUnitDirectory_dirPath hName
  symm
  exact FileTree.ensureDir_eq_ok_iff
    (hPath.join hRegular.root).1
    (FilePath.endsInName_join hPath.not_isIdle _) hRooted
    (hAfter.rooted (hRooted.ensureDir _)) hAfter.directories
    (hAfter.alike _ .directory)

end Task

------------------------------------------------------------
-- Creating A File
------------------------------------------------------------

namespace FileTree

variable {t u : FileTree} {path parent : FilePath}
variable {text : String}

/- Making the directory of a file puts nothing in its place. -/
theorem at?_ensureDir_parent
    (hForward : path.IsForward)
    (hEnds : path.EndsInName)
    (hParent : path.parent? = some parent)
    (t : FileTree) :
    (t.ensureDir parent).2.at? path.place =
      t.at? path.place := by
  have hIs := FilePath.isParent_of_parent? hParent
  have hAdds := addsDirectories_ensureDir_place
    (hIs.forward hForward) t path.place
  apply hAdds.resolve_right
  rintro ⟨hPrefix, _⟩
  rcases hEnds.exists_names with ⟨front, last, hNames⟩
  have hLength := hPrefix.length_le
  unfold FilePath.place at hLength
  rw [hIs.start, hIs.names, hNames] at hLength
  simp only [List.length_append, List.length_singleton,
    List.dropLast_concat] at hLength
  omega

/- A file is created where nothing is; otherwise it is left. -/
theorem create_eq_ok_iff {created : Bool} :
    t.create path text = (.ok created, u) ↔
      ∃ place,
        t.locateTrimmed path = .ok place ∧
          ¬ EndsInSlash path ∧
            (created = true ↔ t.at? place = none) ∧
              u =
                if created then
                  t.put place (Node.ofText text)
                else
                  t := by
  unfold create
  cases hLocate : t.locateTrimmed path with
  | error fault =>
      simp
  | ok place =>
      by_cases hSlash : EndsInSlash path
      · simp [hSlash]
      · cases hNode : t.at? place <;> cases created <;>
          simp [hSlash, hNode, eq_comm]

/-
  A file that was created holds the text if nothing was at its
  place; otherwise the tree is as it was.
-/
theorem created_of_create
    {created : Bool}
    (hForward : path.IsForward)
    (hCreate : t.create path text = (.ok created, u)) :
    (created = true ↔ t.at? path.place = none) ∧
      (created = true → u.Holds path text) ∧
        (created = false → u = t) := by
  rcases create_eq_ok_iff.mp hCreate with
    ⟨place, hLocate, hSlash, hNew, rfl⟩
  have hPlace := eq_place_of_locateTrimmed hForward hLocate
  subst hPlace
  refine ⟨hNew, fun hCreated => ?_, fun hLeft => ?_⟩
  · have hFree : t.at? path.place ≠ some .directory := by
      rw [hNew.mp hCreated]
      simp
    rw [if_pos hCreated]
    refine ⟨path.place, ?_, hSlash, ?_⟩
    · exact (keepsDirectories_put hFree _).locatePieces hLocate
    · rw [at?_put (not_isUpward hFree), if_pos rfl]
  · rw [hLeft]
    rfl

end FileTree

end Palimpsest
