import Palimpsest.Proofs.Output.Layout

/-
  Why the files of different names never clash.

  A text is read as a name when it has no empty part and no
  forbidden character, and then shows as it was written.  In
  the path of a file only the last piece has a dot, and no
  piece of a directory has one.  So a file path gives back its
  name, and it is neither above another file path nor on the
  way to a directory.  This holds of package files as well,
  because the stem is one segment more.

  Main declarations:
    * `QualifiedName.parse_eq_ok_iff`
    * `FilePath.IsAbove`
    * `QualifiedName.IsBare.eq_of_filePath`
    * `Emitter.layout_without_clashes`
-/

namespace Palimpsest

------------------------------------------------------------
-- Reading Names
------------------------------------------------------------

namespace QualifiedName

/- A part of a dotted text that may be a segment. -/
def IsAllowed (part : String) : Prop :=
  part ≠ "" ∧
    ∀ c ∈ part.toList, c ≠ '/' ∧ c ≠ '\\' ∧ c ≠ '\x00'

theorem isAllowed_iff (part : String) :
    IsAllowed part ↔
      part ≠ "" ∧ ¬ HasForbidden part.toList := by
  simp [IsAllowed, HasForbidden, IsForbidden]

/- Texts whose parts are all allowed are read as names. -/
theorem parse_eq_ok_iff
    {text : String}
    {name : QualifiedName} :
    parse text = .ok name ↔
      (∀ part ∈ Text.splitAt '.' text, IsAllowed part) ∧
        name.segments = Text.splitAt '.' text := by
  have hChecked (segments : List String) :
      checkSegments (Text.splitAt '.' text) = .ok segments ↔
        segments = Text.splitAt '.' text ∧
          ∀ part ∈ Text.splitAt '.' text, IsAllowed part := by
    rw [checkSegments_eq_ok_iff]
    simp only [isAllowed_iff]
  unfold parse
  by_cases hEmpty : text = ""
  · rw [if_pos hEmpty, hEmpty]
    have hPart : "" ∈ Text.splitAt '.' "" := by
      decide
    exact iff_of_false nofun
      (fun hAll => (hAll.1 "" hPart).1 rfl)
  · rw [if_neg hEmpty]
    cases hCheck : checkSegments (Text.splitAt '.' text) with
    | error e =>
        refine iff_of_false nofun (fun hAll => ?_)
        have hOk := (hChecked _).mpr ⟨rfl, hAll.1⟩
        rw [hCheck] at hOk
        cases hOk
    | ok segments =>
        rcases (hChecked segments).mp hCheck with ⟨rfl, hAll⟩
        rw [and_iff_right hAll]
        cases name
        simp [eq_comm]

/- A name that was read shows as it was written. -/
theorem dotted_of_parse
    {text : String}
    {name : QualifiedName}
    (hParse : parse text = .ok name) :
    name.dotted = text := by
  unfold dotted join
  rw [(parse_eq_ok_iff.mp hParse).2]
  exact Text.joinWith_splitAt (by decide) text

/- Two names with the same segments are the same. -/
theorem eq_of_segments
    {p q : QualifiedName}
    (hSame : p.segments = q.segments) :
    p = q := by
  cases p
  cases q
  exact congrArg QualifiedName.mk hSame

end QualifiedName

------------------------------------------------------------
-- Paths That Are Compared
------------------------------------------------------------

namespace FilePath

/- A path on the way to another one, and not the same. -/
def IsAbove (path other : FilePath) : Prop :=
  path.components <+: other.components ∧
    path.components ≠ other.components

/- A path of names only is compared piece by piece. -/
theorem components_eq_pieces
    {path : FilePath}
    (hPath : ∀ piece ∈ path.pieces, ¬ IsIdle piece) :
    path.components = path.pieces := by
  have hStart : path.split.start = "" := by
    rcases path.split_cases with
      ⟨rest, _, hPieces, _⟩ | ⟨hPieces, _⟩ |
        ⟨hPieces, _⟩ | ⟨rest, _, hPieces, _⟩ |
        ⟨first, rest, _, _, hSplit⟩
    · exact absurd isIdle_empty (hPath "" (by simp [hPieces]))
    · exact absurd isIdle_empty (hPath "" (by simp [hPieces]))
    · exact absurd isIdle_dot (hPath "." (by simp [hPieces]))
    · exact absurd isIdle_dot (hPath "." (by simp [hPieces]))
    · rw [hSplit]
  unfold components
  rw [if_pos hStart, List.nil_append, names_eq_pieces hPath]

/-
  A path to a unit file that leads on to another unit file has
  the same pieces: a piece with a dot can only be the last.
-/
theorem IsUnitFile.eq_of_prefix
    {path other : FilePath}
    (hPath : path.IsUnitFile)
    (hOther : other.IsUnitFile)
    (hPrefix : path.pieces <+: other.pieces) :
    path.pieces = other.pieces := by
  rcases hPath with ⟨front, file, hPieces, _, hFile⟩
  rcases hOther with ⟨directories, last, hSame, hBare, _⟩
  rw [hSame, List.prefix_concat_iff] at hPrefix
  rcases hPrefix with hAll | hFront
  · rw [hAll, hSame]
  · have hMem : file ∈ directories :=
      hFront.subset (by simp [hPieces])
    exact absurd hFile (hBare file hMem).not_isDotted

/- No unit file is on the way to a unit directory. -/
theorem IsUnitFile.not_prefix
    {path other : FilePath}
    (hPath : path.IsUnitFile)
    (hOther : other.IsUnitDirectory) :
    ¬ path.pieces <+: other.pieces := by
  rcases hPath with ⟨front, file, hPieces, _, hFile⟩
  intro hPrefix
  have hMem : file ∈ other.pieces :=
    hPrefix.subset (by simp [hPieces])
  exact (hOther file hMem).not_isDotted hFile

end FilePath

------------------------------------------------------------
-- Files And Directories Of Names
------------------------------------------------------------

namespace QualifiedName

variable {p q : QualifiedName} {extension : String}

theorem IsBare.components_dirPath (hName : p.IsBare) :
    p.dirPath.components = p.segments := by
  rw [FilePath.components_eq_pieces, hName.pieces_dirPath]
  rw [hName.pieces_dirPath]
  exact fun piece hPiece => (hName.2 piece hPiece).not_isIdle

/- The file of a name gives the name back. -/
theorem IsBare.eq_of_filePath
    (hp : p.IsBare)
    (hq : q.IsBare)
    (hExtension : extension ≠ "")
    (hSlash : FilePath.separator ∉ extension.toList)
    (hSame :
      (p.filePath extension).components =
        (q.filePath extension).components) :
    p = q := by
  rw [FilePath.components_eq_pieces
      (hp.isUnitFile_filePath hExtension hSlash).not_isIdle,
    FilePath.components_eq_pieces
      (hq.isUnitFile_filePath hExtension hSlash).not_isIdle]
    at hSame
  rcases hp.exists_pieces_filePath hExtension hSlash with
    ⟨front, last, hSegments, _, _, hPieces⟩
  rcases hq.exists_pieces_filePath hExtension hSlash with
    ⟨front', last', hSegments', _, _, hPieces'⟩
  rw [hPieces, hPieces'] at hSame
  rcases List.append_inj' hSame rfl with ⟨hFront, hFile⟩
  have hLast : last = last' := by
    simpa using hFile
  apply eq_of_segments
  rw [hSegments, hSegments', hFront, hLast]

/- No file of a name is above the file of another one. -/
theorem IsBare.not_isAbove
    (hp : p.IsBare)
    (hq : q.IsBare)
    (hExtension : extension ≠ "")
    (hSlash : FilePath.separator ∉ extension.toList) :
    ¬ (p.filePath extension).IsAbove
      (q.filePath extension) := by
  have hPath := hp.isUnitFile_filePath hExtension hSlash
  have hOther := hq.isUnitFile_filePath hExtension hSlash
  unfold FilePath.IsAbove
  rw [FilePath.components_eq_pieces hPath.not_isIdle,
    FilePath.components_eq_pieces hOther.not_isIdle]
  rintro ⟨hPrefix, hDiffers⟩
  exact hDiffers (hPath.eq_of_prefix hOther hPrefix)

/- No file of a name is on the way to a directory. -/
theorem IsBare.not_prefix_dirPath
    (hp : p.IsBare)
    (hq : q.IsBare)
    (hExtension : extension ≠ "")
    (hSlash : FilePath.separator ∉ extension.toList) :
    ¬ (p.filePath extension).components <+:
      q.dirPath.components := by
  have hPath := hp.isUnitFile_filePath hExtension hSlash
  have hDirectory : q.dirPath.IsUnitDirectory := by
    unfold FilePath.IsUnitDirectory
    rw [hq.pieces_dirPath]
    exact hq.2
  rw [FilePath.components_eq_pieces hPath.not_isIdle,
    FilePath.components_eq_pieces hDirectory.not_isIdle]
  exact hPath.not_prefix hDirectory

end QualifiedName

namespace Emitter

/-
  Let the extension of an emitter be a text without slashes
  that is not empty.

  A text is read as a name exactly when it is not empty and
  all its parts are allowed, and the name shows as the text.
  Names that were read have different files and different
  directories; no file is above another one, and none is a
  directory or above one.  With a stem that is a bare name,
  the package files of two modules differ, and a package file
  is the file of no other name than the module's with the stem
  as one segment more.
-/
theorem layout_without_clashes
    {e : Emitter}
    (hExtension : e.extension ≠ "")
    (hSlash : FilePath.separator ∉ e.extension.toList) :
    (∀ text,
      ((∃ name, QualifiedName.parse text = .ok name) ↔
        text ≠ "" ∧
          ∀ part ∈ Text.splitAt '.' text,
            QualifiedName.IsAllowed part) ∧
      ∀ name, QualifiedName.parse text = .ok name →
        name.dotted = text) ∧
    ∀ p q : QualifiedName, p.IsParsed → q.IsParsed →
      ((e.filePath p).components = (e.filePath q).components →
        p = q) ∧
      (p.dirPath.components = q.dirPath.components → p = q) ∧
      ¬ (e.filePath p).IsAbove (e.filePath q) ∧
      ¬ (e.filePath p).components <+: q.dirPath.components ∧
      (FilePath.IsBare e.packageFileStem →
        ((e.packageFilePath p).components =
          (e.packageFilePath q).components → p = q) ∧
        ((e.packageFilePath p).components =
          (e.filePath q).components →
            q = p.child e.packageFileStem)) := by
  refine ⟨fun text => ⟨?_, fun name =>
    QualifiedName.dotted_of_parse⟩, fun p q hp hq => ?_⟩
  · have hEmpty : ¬ ∀ part ∈ Text.splitAt '.' "",
        QualifiedName.IsAllowed part :=
      fun hAll => (hAll "" (by decide)).1 rfl
    simp only [QualifiedName.parse_eq_ok_iff]
    constructor
    · rintro ⟨name, hAll, _⟩
      exact ⟨fun hText => hEmpty (hText ▸ hAll), hAll⟩
    · rintro ⟨_, hAll⟩
      exact ⟨⟨_⟩, hAll, rfl⟩
  · have hpBare := hp.isBare
    have hqBare := hq.isBare
    refine ⟨hpBare.eq_of_filePath hqBare hExtension hSlash,
      fun hSame => ?_,
      hpBare.not_isAbove hqBare hExtension hSlash,
      hpBare.not_prefix_dirPath hqBare hExtension hSlash,
      fun hStem => ⟨fun hSame => ?_, fun hSame => ?_⟩⟩
    · rw [hpBare.components_dirPath,
        hqBare.components_dirPath] at hSame
      exact QualifiedName.eq_of_segments hSame
    · have hChild := (hpBare.child hStem).eq_of_filePath
        (hqBare.child hStem) hExtension hSlash hSame
      apply QualifiedName.eq_of_segments
      simpa [QualifiedName.child] using hChild
    · exact ((hpBare.child hStem).eq_of_filePath hqBare
        hExtension hSlash hSame).symm

/- An emitter whose extension has a dot inside. -/
def archiving : Emitter :=
  { Emitter.new ⟨"src"⟩ "  " none with extension := "tar.gz" }

/- The name of a module. -/
def billing : QualifiedName :=
  ⟨["com", "billing"]⟩

/- The name of a class in the module. -/
def invoiceName : QualifiedName :=
  ⟨["com", "billing", "Invoice"]⟩

/- The file of the class is beside the one of its module. -/
theorem layout_without_clashes_dotted_extension :
    archiving.extension ≠ "" ∧
    FilePath.separator ∉ archiving.extension.toList ∧
    billing.IsParsed ∧ invoiceName.IsParsed ∧
    FilePath.IsBare archiving.packageFileStem ∧
    (archiving.filePath billing).components =
      ["com", "billing.tar.gz"] ∧
    ¬ (archiving.filePath billing).IsAbove
      (archiving.filePath invoiceName) ∧
    ¬ (archiving.filePath billing).components <+:
      invoiceName.dirPath.components ∧
    (archiving.packageFilePath billing).components ≠
      (archiving.filePath invoiceName).components := by
  have hExtension : archiving.extension ≠ "" := by
    decide
  have hSlash :
      FilePath.separator ∉ archiving.extension.toList := by
    decide
  have hBilling : billing.IsParsed :=
    ⟨"com.billing", by decide +kernel⟩
  have hInvoice : invoiceName.IsParsed :=
    ⟨"com.billing.Invoice", by decide +kernel⟩
  have hStem : FilePath.IsBare archiving.packageFileStem :=
    ⟨by decide, by decide, by decide⟩
  rcases layout_without_clashes hExtension hSlash with
    ⟨_, hLayout⟩
  rcases hLayout billing invoiceName hBilling hInvoice with
    ⟨_, _, hAbove, hDirectory, hPackage⟩
  refine ⟨hExtension, hSlash, hBilling, hInvoice, hStem,
    by decide +kernel, hAbove, hDirectory, fun hSame => ?_⟩
  have hChild := (hPackage hStem).2 hSame
  exact absurd hChild (by decide +kernel)

end Emitter

end Palimpsest
