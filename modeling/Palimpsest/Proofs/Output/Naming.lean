import Palimpsest.Generator
import Palimpsest.Proofs.Output.Layout

/-
  Where a generator stores the units whose names were read
  from texts.

  The file of a classifier or template is called after its
  name and stays in the directory of the enclosing name.  The
  stem of package files is not checked as a segment is, so a
  package file is where its name puts it only when the stem
  is relative and ends in a name without a dot inside, and it
  stays in the directory of its module only when the stem is
  relative, has no step up, and has a name.

  Main declarations:
    * `FilePath.StaysBelow`
    * `Generator.unit_paths_follow_names`
-/

namespace Palimpsest

------------------------------------------------------------
-- Paths Below Directories
------------------------------------------------------------

namespace FilePath

/- A path that leads down below directories. -/
structure StaysBelow
    (path : FilePath)
    (directories : List String) : Prop where
  relative : ¬ path.IsAbsolute
  forward : path.IsForward
  below : directories <+: path.names

variable {path : FilePath}

/- A path that starts with names is relative. -/
theorem not_isAbsolute_of_front
    {front rest : List String}
    (hPieces : path.pieces = front ++ rest)
    (hNonempty : front ≠ [])
    (hFront : ∀ piece ∈ front, ¬ IsIdle piece) :
    ¬ path.IsAbsolute := by
  rw [isAbsolute_iff]
  rintro ⟨others, _, hSame⟩
  cases front with
  | nil =>
      exact hNonempty rfl
  | cons first front =>
      rw [hPieces] at hSame
      exact hFront first List.mem_cons_self
        (.inl (List.cons.inj hSame).1)

end FilePath

------------------------------------------------------------
-- Directories Of Names
------------------------------------------------------------

namespace QualifiedName

variable {name : QualifiedName} {stem : String}

/- One segment more is joined to the directory. -/
theorem dirPath_child
    (name : QualifiedName)
    (stem : String) :
    (name.child stem).dirPath = name.dirPath.join ⟨stem⟩ := by
  simp [dirPath, child, FilePath.ofSegments]

theorem text_dirPath (hName : name.IsParsed) :
    name.dirPath.text = name.join "/" := by
  rw [← FilePath.text_eq_joinWith name.dirPath,
    hName.isBare.pieces_dirPath]
  rfl

theorem not_isAbsolute_dirPath (hName : name.IsParsed) :
    ¬ name.dirPath.IsAbsolute :=
  FilePath.not_isAbsolute_of_names
    (Emitter.isUnitDirectory_dirPath hName).not_isIdle

/- An absolute stem replaces the directory. -/
theorem dirPath_child_of_isAbsolute
    (hStem : (FilePath.mk stem).IsAbsolute) :
    (name.child stem).dirPath = ⟨stem⟩ := by
  rw [dirPath_child]
  exact if_pos hStem

/- A relative stem has its pieces behind the segments. -/
theorem pieces_dirPath_child
    (hName : name.IsParsed)
    (hStem : ¬ (FilePath.mk stem).IsAbsolute) :
    (name.child stem).dirPath.pieces =
      name.segments ++ (FilePath.mk stem).pieces := by
  rw [dirPath_child, FilePath.pieces_join_of_names
    (Emitter.isUnitDirectory_dirPath hName).not_isIdle hStem,
    hName.isBare.pieces_dirPath]

/- A relative stem stands behind the segments. -/
theorem text_dirPath_child
    (hName : name.IsParsed)
    (hStem : ¬ (FilePath.mk stem).IsAbsolute) :
    (name.child stem).dirPath.text =
      name.join "/" ++ "/" ++ stem := by
  rw [← FilePath.text_eq_joinWith,
    pieces_dirPath_child hName hStem]
  have hSome : (FilePath.mk stem).pieces ≠ [] :=
    Text.splitAt_ne_nil stem
  apply String.toList_inj.mp
  rw [Text.toList_joinWith_append "/" hName.isBare.1 hSome,
    FilePath.text_eq_joinWith]
  simp [join]

theorem isAbsolute_dirPath_child (hName : name.IsParsed) :
    (name.child stem).dirPath.IsAbsolute ↔
      (FilePath.mk stem).IsAbsolute := by
  by_cases hStem : (FilePath.mk stem).IsAbsolute
  · rw [dirPath_child_of_isAbsolute hStem]
  · refine iff_of_false ?_ hStem
    exact FilePath.not_isAbsolute_of_front
      (pieces_dirPath_child hName hStem) hName.isBare.1
      (fun piece hPiece =>
        (hName.isBare.2 piece hPiece).not_isIdle)

theorem isForward_dirPath_child (hName : name.IsParsed) :
    (name.child stem).dirPath.IsForward ↔
      (FilePath.mk stem).IsForward := by
  by_cases hStem : (FilePath.mk stem).IsAbsolute
  · rw [dirPath_child_of_isAbsolute hStem]
  · have hSegments : ".." ∉ name.segments :=
      fun hMem => (hName.isBare.2 _ hMem).ne_dots rfl
    unfold FilePath.IsForward
    rw [pieces_dirPath_child hName hStem]
    simp [hSegments]

/- No text behind the segments makes a path absolute. -/
theorem not_isAbsolute_join (hName : name.IsParsed)
    (more : String) :
    ¬ (FilePath.mk
      (name.join "/" ++ "/" ++ more)).IsAbsolute := by
  have hChars :
      (FilePath.mk (name.join "/" ++ "/" ++ more)).text.toList =
        name.dirPath.text.toList ++
          FilePath.separator ::
            (FilePath.mk more).text.toList := by
    have hSlash : "/".toList = [FilePath.separator] := by
      decide
    simp [text_dirPath hName, hSlash]
  have hPieces := FilePath.pieces_of_toList hChars
  rw [String.ofList_toList] at hPieces
  refine FilePath.not_isAbsolute_of_front hPieces ?_
    (Emitter.isUnitDirectory_dirPath hName).not_isIdle
  exact Text.splitAt_ne_nil _

end QualifiedName

------------------------------------------------------------
-- Files Of Units And Packages
------------------------------------------------------------

namespace QualifiedName

variable {name : QualifiedName} {stem extension : String}

/- The last segment of a name takes an extension behind it. -/
theorem filePath_eq
    (hExtension : extension ≠ "")
    (hSlash : FilePath.separator ∉ extension.toList)
    (hName : name.IsParsed) :
    name.filePath extension =
      ⟨name.join "/" ++ "." ++ extension⟩ := by
  have hPlain : name.dirPath.EndsPlain := by
    intro last hLast
    rw [hName.isBare.pieces_dirPath] at hLast
    have hBare := hName.isBare.2 last
      (List.mem_of_mem_getLast? hLast)
    exact ⟨hBare.not_isIdle,
      fun hMem => hBare.2.1 (List.mem_of_mem_tail hMem)⟩
  unfold filePath
  rw [if_neg hExtension, ← text_dirPath hName]
  exact (FilePath.withExtension_eq_append_iff hExtension hSlash
    name.dirPath).mpr hPlain

/- The file of a name stays in the enclosing directory. -/
theorem staysBelow_filePath
    (hExtension : extension ≠ "")
    (hSlash : FilePath.separator ∉ extension.toList)
    (hDot : extension.toList.head? ≠ some '.')
    (hName : name.IsParsed) :
    (name.filePath extension).StaysBelow
      name.segments.dropLast := by
  have hDirectory := Emitter.isUnitDirectory_dirPath hName
  have hNames : name.dirPath.names = name.segments := by
    rw [FilePath.names_eq_pieces hDirectory.not_isIdle,
      hName.isBare.pieces_dirPath]
  rw [filePath, if_neg hExtension]
  refine ⟨?_, ?_, ?_⟩
  · rw [FilePath.isAbsolute_withExtension hExtension hSlash]
    exact not_isAbsolute_dirPath hName
  · rw [FilePath.isForward_withExtension hExtension hSlash
      hDot]
    exact hDirectory.isForward
  · rcases List.eq_nil_or_concat name.segments with
      hNil | ⟨front, last, hConcat⟩
    · exact absurd hNil hName.isBare.1
    rw [List.concat_eq_append] at hConcat
    rw [hConcat] at hNames
    rw [hConcat, List.dropLast_concat,
      FilePath.names_withExtension hExtension hSlash
        hDirectory.isForward hNames]
    exact List.prefix_append _ _

/-
  The package file is called after the module and the stem
  when the stem is relative and ends in a name without a dot
  inside.
-/
theorem filePath_child_eq_iff
    (stem : String)
    (hExtension : extension ≠ "")
    (hSlash : FilePath.separator ∉ extension.toList)
    (hName : name.IsParsed) :
    (name.child stem).filePath extension =
        ⟨name.join "/" ++ "/" ++ stem ++ "." ++ extension⟩ ↔
      ¬ (FilePath.mk stem).IsAbsolute ∧
        (FilePath.mk stem).EndsPlain := by
  have hFile :
      (name.child stem).filePath extension =
        (name.child stem).dirPath.withExtension extension :=
    if_neg hExtension
  have hSome : (FilePath.mk stem).pieces ≠ [] :=
    Text.splitAt_ne_nil stem
  rw [hFile]
  by_cases hStem : (FilePath.mk stem).IsAbsolute
  · refine iff_of_false (fun hSame => ?_)
      (fun hBoth => hBoth.1 hStem)
    have hAbsolute := (FilePath.isAbsolute_withExtension
      hExtension hSlash (name.child stem).dirPath).mpr
        ((isAbsolute_dirPath_child hName).mpr hStem)
    rw [hSame] at hAbsolute
    refine not_isAbsolute_join hName
      (stem ++ "." ++ extension) ?_
    simpa only [String.append_assoc] using hAbsolute
  · rw [and_iff_right hStem, ← text_dirPath_child hName hStem,
      FilePath.withExtension_eq_append_iff hExtension hSlash]
    unfold FilePath.EndsPlain
    rw [pieces_dirPath_child hName hStem,
      List.getLast?_append_of_ne_nil _ hSome]

/- The steps to a relative stem follow the segments. -/
theorem names_dirPath_child
    (hName : name.IsParsed)
    (hStem : ¬ (FilePath.mk stem).IsAbsolute) :
    (name.child stem).dirPath.names =
      name.segments ++ (FilePath.mk stem).names := by
  unfold FilePath.names
  rw [pieces_dirPath_child hName hStem,
    FilePath.namesOf_append, FilePath.namesOf_eq_self
      (fun piece hPiece =>
        (hName.isBare.2 piece hPiece).not_isIdle)]

theorem isAbsolute_filePath_child
    (stem : String)
    (hExtension : extension ≠ "")
    (hSlash : FilePath.separator ∉ extension.toList)
    (hName : name.IsParsed) :
    ((name.child stem).filePath extension).IsAbsolute ↔
      (FilePath.mk stem).IsAbsolute := by
  rw [filePath, if_neg hExtension,
    FilePath.isAbsolute_withExtension hExtension hSlash,
    isAbsolute_dirPath_child hName]

theorem isForward_filePath_child
    (stem : String)
    (hExtension : extension ≠ "")
    (hSlash : FilePath.separator ∉ extension.toList)
    (hDot : extension.toList.head? ≠ some '.')
    (hName : name.IsParsed) :
    ((name.child stem).filePath extension).IsForward ↔
      (FilePath.mk stem).IsForward := by
  rw [filePath, if_neg hExtension,
    FilePath.isForward_withExtension hExtension hSlash hDot,
    isForward_dirPath_child hName]

/- Below the segments there must be a step to the stem. -/
theorem prefix_names_filePath_child_iff
    (hExtension : extension ≠ "")
    (hSlash : FilePath.separator ∉ extension.toList)
    (hName : name.IsParsed)
    (hStem : ¬ (FilePath.mk stem).IsAbsolute)
    (hForward : (FilePath.mk stem).IsForward) :
    name.segments <+:
        ((name.child stem).filePath extension).names ↔
      (FilePath.mk stem).names ≠ [] := by
  have hDirectory :=
    (isForward_dirPath_child hName).mpr hForward
  have hNames := names_dirPath_child hName hStem
  rw [filePath, if_neg hExtension]
  rcases List.eq_nil_or_concat (FilePath.mk stem).names with
    hNil | ⟨more, final, hConcat⟩
  -- Without a step to the stem, the last segment takes the
  -- extension and is no directory any more.
  · refine iff_of_false (fun hPrefix => ?_) (not_not.mpr hNil)
    rcases List.eq_nil_or_concat name.segments with
      hNone | ⟨front, last, hLast⟩
    · exact hName.isBare.1 hNone
    rw [List.concat_eq_append] at hLast
    rw [hNil, List.append_nil, hLast] at hNames
    rw [FilePath.names_withExtension hExtension hSlash
      hDirectory hNames, hLast,
      List.prefix_append_right_inj] at hPrefix
    have hSame : last =
        (FilePath.cutExtension last).1 ++ "." ++ extension := by
      simpa using hPrefix
    have hBare := hName.isBare.2 last (by simp [hLast])
    exact hBare.2.1 (by rw [hSame]; simp)
  · rw [List.concat_eq_append] at hConcat
    rw [hConcat, ← List.append_assoc] at hNames
    refine iff_of_true ?_ (by simp [hConcat])
    rw [FilePath.names_withExtension hExtension hSlash
      hDirectory hNames, List.append_assoc]
    exact List.prefix_append _ _

/-
  The package file stays in the directory of the module when
  the stem is relative, has no step up, and has a name.
-/
theorem staysBelow_filePath_child_iff
    (stem : String)
    (hExtension : extension ≠ "")
    (hSlash : FilePath.separator ∉ extension.toList)
    (hDot : extension.toList.head? ≠ some '.')
    (hName : name.IsParsed) :
    ((name.child stem).filePath extension).StaysBelow
        name.segments ↔
      ¬ (FilePath.mk stem).IsAbsolute ∧
        (FilePath.mk stem).IsForward ∧
          (FilePath.mk stem).names ≠ [] := by
  have hAbsolute :=
    isAbsolute_filePath_child stem hExtension hSlash hName
  have hForward :=
    isForward_filePath_child stem hExtension hSlash hDot hName
  constructor
  · rintro ⟨hPath, hNoUp, hBelow⟩
    have hStem := hAbsolute.not.mp hPath
    have hUp := hForward.mp hNoUp
    exact ⟨hStem, hUp,
      (prefix_names_filePath_child_iff hExtension hSlash hName
        hStem hUp).mp hBelow⟩
  · rintro ⟨hStem, hUp, hSome⟩
    exact ⟨hAbsolute.not.mpr hStem, hForward.mpr hUp,
      (prefix_names_filePath_child_iff hExtension hSlash hName
        hStem hUp).mpr hSome⟩

end QualifiedName

------------------------------------------------------------
-- Files Of A Generator
------------------------------------------------------------

namespace Config

variable {c : Config}

/- What the checks of a configuration say of file names. -/
theorem fileNames_of_validate
    (hValid : c.validate = .ok ()) :
    c.extension ≠ "" ∧ ¬ StartsWithDot c.extension ∧
      c.packageFileStem ≠ "" := by
  have hFault : c.fault? = none := by
    unfold validate at hValid
    cases hFault : c.fault? with
    | none => rfl
    | some fault => simp [hFault] at hValid
  unfold fault? at hFault
  split_ifs at hFault with hEmpty hDot hStem hWide
  exact ⟨hEmpty, hDot, hStem⟩

end Config

namespace Generator

/- A generator is made for a valid configuration. -/
theorem emitter_of_new
    {c : Config}
    {g : Generator}
    (hNew : new c = .ok g) :
    c.validate = .ok () ∧ g.emitter = emitterOf c := by
  unfold new at hNew
  cases hValid : c.validate with
  | error e =>
      simp [hValid] at hNew
  | ok checked =>
      rw [hValid] at hNew
      cases hNew
      exact ⟨rfl, rfl⟩

/-
  Take a valid configuration whose extension has no slash, and
  a name read from a text.

  The file with this name is its segments joined by slashes
  and the extension, and it stays in the enclosing directory.
  The package file is the same with a slash and the stem
  before the extension exactly when the stem is relative and
  ends in a name without a dot inside.  It is absolute, or has
  a step up, exactly when the stem is or has; and it stays in
  the directory of the module exactly when the stem is
  relative, has no step up, and has a name.
-/
theorem unit_paths_follow_names
    {c : Config}
    {g : Generator}
    {name : QualifiedName}
    (hNew : new c = .ok g)
    (hSlash : FilePath.separator ∉ c.extension.toList)
    (hName : name.IsParsed) :
    g.emitter.filePath name =
        ⟨name.join "/" ++ "." ++ c.extension⟩ ∧
      (g.emitter.filePath name).StaysBelow
        name.segments.dropLast ∧
      (g.emitter.packageFilePath name =
          ⟨name.join "/" ++ "/" ++ c.packageFileStem ++ "." ++
            c.extension⟩ ↔
        ¬ (FilePath.mk c.packageFileStem).IsAbsolute ∧
          (FilePath.mk c.packageFileStem).EndsPlain) ∧
      ((g.emitter.packageFilePath name).IsAbsolute ↔
        (FilePath.mk c.packageFileStem).IsAbsolute) ∧
      ((g.emitter.packageFilePath name).IsForward ↔
        (FilePath.mk c.packageFileStem).IsForward) ∧
      ((g.emitter.packageFilePath name).StaysBelow
          name.segments ↔
        ¬ (FilePath.mk c.packageFileStem).IsAbsolute ∧
          (FilePath.mk c.packageFileStem).IsForward ∧
            (FilePath.mk c.packageFileStem).names ≠ []) := by
  rcases emitter_of_new hNew with ⟨hValid, hEmitter⟩
  rcases Config.fileNames_of_validate hValid with
    ⟨hExtension, hDot, _⟩
  rw [hEmitter]
  exact ⟨
    QualifiedName.filePath_eq hExtension hSlash hName,
    QualifiedName.staysBelow_filePath hExtension hSlash hDot
      hName,
    QualifiedName.filePath_child_eq_iff c.packageFileStem
      hExtension hSlash hName,
    QualifiedName.isAbsolute_filePath_child c.packageFileStem
      hExtension hSlash hName,
    QualifiedName.isForward_filePath_child c.packageFileStem
      hExtension hSlash hDot hName,
    QualifiedName.staysBelow_filePath_child_iff
      c.packageFileStem hExtension hSlash hDot hName⟩

/- The default configuration with another stem. -/
def stemmed (stem : String) : Config :=
  { Config.default with packageFileStem := stem }

/- The name of a package. -/
def acme : QualifiedName :=
  ⟨["com", "acme"]⟩

/- A stem with a dot inside is cut, and a rooted one leads out. -/
theorem unit_paths_follow_names_stems :
    (∃ g,
      new (stemmed "package.info") = .ok g ∧
        g.emitter.filePath acme = ⟨"com/acme.java"⟩ ∧
        g.emitter.packageFilePath acme ≠
          ⟨"com/acme/package.info.java"⟩ ∧
        (g.emitter.packageFilePath acme).StaysBelow
          acme.segments) ∧
    (∃ g,
      new (stemmed "/package-info") = .ok g ∧
        (g.emitter.packageFilePath acme).IsAbsolute) := by
  have hName : acme.IsParsed :=
    ⟨"com.acme", by decide +kernel⟩
  constructor
  · rcases unit_paths_follow_names (c := stemmed "package.info")
        rfl (by decide) hName with
      ⟨hFile, _, hPackage, _, _, hStays⟩
    refine ⟨_, rfl, ?_, ?_, hStays.mpr (by decide +kernel)⟩
    · rw [hFile]
      decide +kernel
    · intro hSame
      have hPlain := hPackage.mp (hSame.trans (by decide +kernel))
      exact absurd hPlain.2 (by decide +kernel)
  · rcases unit_paths_follow_names
        (c := stemmed "/package-info") rfl (by decide) hName
      with ⟨_, _, _, hAbsolute, _⟩
    exact ⟨_, rfl, hAbsolute.mpr (by decide +kernel)⟩

end Generator

end Palimpsest
