import Palimpsest.Proofs.Files.Frame
import Palimpsest.Proofs.Output.RoundTrip

/-
  What a source unit that fails leaves behind.

  A source unit runs through stages: its section ids are
  checked, the previous text is read, its sections are taken
  out, the directory of the new file is made, and the new text
  is written.  The first stage that fails ends the unit and
  gives the error.  Whatever stage that is, every file keeps
  its bytes; before the directory is made, nothing at all is
  changed.

  Main declarations:
    * `Chain.makeParent`
    * `Emitter.Stops`
    * `Emitter.roundTrip_eq_error_iff`
    * `SourceUnit.failed_keeps_files`
-/

namespace Palimpsest

------------------------------------------------------------
-- The Directory Of A File
------------------------------------------------------------

namespace Chain

variable {α : Type} {t u : FileTree} {path : FilePath}

/- Make the directory that a file is in, and nothing else. -/
def makeParent
    (path : FilePath) : Chain (Except UnitError Unit) :=
  insideParent path (.done (.ok ()))

/- Going on inside the directory of a file makes it first. -/
theorem run_insideParent_eq
    (path : FilePath)
    (next : Chain (Except UnitError α))
    (t : FileTree) :
    (insideParent path next).run t =
      match (makeParent path).run t with
      | (.error fault, u) => (.error fault, u)
      | (.ok (), u) => next.run u := by
  unfold makeParent insideParent
  cases path.parent? with
  | none =>
      rfl
  | some parent =>
      dsimp only
      split
      · rfl
      · rw [run_bind, run_bind]
        rcases (makeDirs parent).run t with ⟨_ | _, u⟩ <;> rfl

/-
  The directory of a file cannot be made when the path above
  the file cannot.
-/
theorem run_makeParent_eq_error_iff {fault : UnitError} :
    (makeParent path).run t = (.error fault, u) ↔
      ∃ parent cause,
        path.parent? = some parent ∧ parent.text ≠ "" ∧
          t.ensureDir parent = (.error cause, u) ∧
            fault = .createDir parent cause := by
  unfold makeParent insideParent
  cases path.parent? with
  | none =>
      simp [run]
  | some parent =>
      dsimp only
      by_cases hText : parent.text = ""
      · simp [hText, run]
      · rw [if_neg hText, run_bind]
        rcases hMake : t.ensureDir parent with ⟨cause | _, v⟩
        · simp only [makeDirs, run, hMake, Except.mapError]
          constructor
          · intro hEq
            cases hEq
            exact ⟨parent, cause, rfl, hText, hMake, rfl⟩
          · rintro ⟨_, _, hParent, _, hOther, rfl⟩
            cases hParent
            rw [hMake] at hOther
            cases hOther
            rfl
        · simp only [makeDirs, run, hMake, Except.mapError]
          constructor
          · intro hEq
            cases hEq
          · rintro ⟨_, _, hParent, _, hOther, _⟩
            cases hParent
            rw [hMake] at hOther
            cases hOther

/- Making the directory of a file adds directories only. -/
theorem addsDirectories_makeParent
    (path : FilePath)
    (t : FileTree) :
    FileTree.AddsDirectories (fun _ => True) t
      ((makeParent path).run t).2 := by
  unfold makeParent insideParent
  cases path.parent? with
  | none =>
      exact .refl _ t
  | some parent =>
      have hAdds :=
        FileTree.addsDirectories_ensureDir parent t
      dsimp only
      split
      · exact .refl _ t
      · rw [run_bind]
        unfold makeDirs
        simp only [run]
        cases (t.ensureDir parent).1 <;> exact hAdds

end Chain

------------------------------------------------------------
-- Stages
------------------------------------------------------------

namespace Emitter

variable {e : Emitter} {f : Fragment} {t u : FileTree}
variable {source destination : FilePath}
variable {fault : UnitError}

/-
  The first stage that fails gives the error of a round trip
  and the tree of files that it leaves: all stages before it
  have succeeded.
-/
inductive Stops
    (e : Emitter)
    (f : Fragment)
    (source destination : FilePath)
    (t : FileTree) : UnitError → FileTree → Prop
| repeatedId
    {id : SectionId}
    (hId : Fragment.firstRepeated? f.sectionIds = some id) :
    Stops e f source destination t
      (.fragment (.duplicateSectionId id)) t
| unreadable
    {cause : FileFault}
    (hIds : f.sectionIds.Nodup)
    (hRead : t.readIfExists source = .error cause) :
    Stops e f source destination t (.read source cause) t
| malformed
    {text : String}
    {cause : ScanError}
    (hIds : f.sectionIds.Nodup)
    (hRead : t.readIfExists source = .ok (some text))
    (hScan : scan text = .error cause) :
    Stops e f source destination t (.scan source cause) t
| unplaced
    {previous : Option String}
    {p : Prepared}
    {parent : FilePath}
    {cause : FileFault}
    {made : FileTree}
    (hIds : f.sectionIds.Nodup)
    (hRead : t.readIfExists source = .ok previous)
    (hPrepare : prepare source f previous = .ok p)
    (hParent : destination.parent? = some parent)
    (hText : parent.text ≠ "")
    (hMake : t.ensureDir parent = (.error cause, made)) :
    Stops e f source destination t
      (.createDir parent cause) made
| unwritable
    {previous : Option String}
    {p : Prepared}
    {cause : FileFault}
    {made : FileTree}
    (hIds : f.sectionIds.Nodup)
    (hRead : t.readIfExists source = .ok previous)
    (hPrepare : prepare source f previous = .ok p)
    (hMake :
      (Chain.makeParent destination).run t = (.ok (), made))
    (hWrite :
      made.write destination (e.render p.tree) =
        (.error cause, made)) :
    Stops e f source destination t
      (.write destination cause) made

/- With unique ids, a text that is scanned can be grafted. -/
theorem prepare_some_of_scan
    (hIds : f.sectionIds.Nodup)
    {text : String}
    {recovered : List Section}
    (hScan : scan text = .ok recovered) :
    ∃ p, prepare source f (some text) = .ok p :=
  ⟨_, prepare_some_eq_ok_iff.mpr
    ⟨recovered, _, hScan, graft_eq_ok_iff.mpr ⟨hIds, rfl⟩,
      rfl⟩⟩

/-
  With unique ids, a tree cannot be prepared when its previous
  text is malformed.
-/
theorem prepare_eq_error_iff
    (hIds : f.sectionIds.Nodup)
    {previous : Option String} :
    prepare source f previous = .error fault ↔
      ∃ text cause,
        previous = some text ∧ scan text = .error cause ∧
          fault = .scan source cause := by
  cases previous with
  | none =>
      simp [prepare]
  | some text =>
      cases hScan : scan text with
      | error cause =>
          simp [prepare, hScan, eq_comm]
      | ok recovered =>
          have hSome :
              ∃ p, prepare source f (some text) = .ok p :=
            prepare_some_of_scan hIds hScan
          rcases hSome with ⟨p, hPrepare⟩
          simp [hPrepare, hScan]

/- A text cannot be written in one of two ways. -/
theorem run_writeText_eq_error_iff {text : String} :
    (Chain.writeText destination text).run t =
        (.error fault, u) ↔
      (Chain.makeParent destination).run t =
          (.error fault, u) ∨
        ∃ cause,
          (Chain.makeParent destination).run t = (.ok (), u) ∧
            u.write destination text = (.error cause, u) ∧
              fault = .write destination cause := by
  unfold Chain.writeText
  rw [Chain.run_insideParent_eq]
  rcases (Chain.makeParent destination).run t with
    ⟨other | _, made⟩
  · simp
  · rcases hWrite : made.write destination text with
      ⟨cause | _, v⟩
    · have hSame := FileTree.eq_of_write_eq_error hWrite
      subst hSame
      simp only [Chain.run, hWrite, Except.mapError]
      constructor
      · intro hEq
        cases hEq
        exact .inr ⟨cause, rfl, hWrite, rfl⟩
      · rintro (hEq | ⟨_, hMade, hOther, rfl⟩)
        · cases hEq
        · cases hMade
          rw [hWrite] at hOther
          cases hOther
          rfl
    · simp only [Chain.run, hWrite, Except.mapError]
      constructor
      · intro hEq
        cases hEq
      · rintro (hEq | ⟨_, hMade, hOther, _⟩)
        · cases hEq
        · cases hMade
          rw [hWrite] at hOther
          cases hOther

/- After all stages before it, a round trip writes. -/
theorem run_roundTrip_of_prepare
    (hIds : f.sectionIds.Nodup)
    {previous : Option String}
    {p : Prepared}
    (hRead : t.readIfExists source = .ok previous)
    (hPrepare : prepare source f previous = .ok p) :
    (e.roundTrip f source destination).run t =
      (e.writePrepared destination p).run t := by
  rw [← Fragment.ensureUniqueSections_eq_ok_iff] at hIds
  unfold roundTrip
  rw [hIds]
  dsimp only
  rw [Chain.run_bind]
  simp only [Chain.readText, Chain.run, hRead,
    Except.mapError, hPrepare]

/- Writing a prepared tree fails as writing its text does. -/
theorem run_writePrepared_eq_error_iff {p : Prepared} :
    (e.writePrepared destination p).run t =
        (.error fault, u) ↔
      (Chain.writeText destination (e.render p.tree)).run t =
        (.error fault, u) := by
  unfold writePrepared
  dsimp only
  rw [Chain.map, Chain.run_bind]
  rcases (Chain.writeText destination
    (e.render p.tree)).run t with ⟨_ | _, v⟩ <;>
    simp [Chain.run]

/- A stage that fails first ends a round trip. -/
theorem Stops.run
    (hStops : Stops e f source destination t fault u) :
    (e.roundTrip f source destination).run t =
      (.error fault, u) := by
  cases hStops with
  | @repeatedId id hId =>
      have hRefused :=
        Fragment.ensureUniqueSections_eq_error_iff.mpr
          ⟨id, hId, rfl⟩
      unfold roundTrip
      rw [hRefused]
      rfl
  | unreadable hIds hRead =>
      rw [← Fragment.ensureUniqueSections_eq_ok_iff] at hIds
      unfold roundTrip
      rw [hIds]
      dsimp only
      rw [Chain.run_bind]
      simp only [Chain.readText, Chain.run, hRead,
        Except.mapError]
  | @malformed text cause hIds hRead hScan =>
      have hPrepare :
          prepare source f (some text) =
            .error (.scan source cause) :=
        (prepare_eq_error_iff hIds).mpr
          ⟨text, cause, rfl, hScan, rfl⟩
      rw [← Fragment.ensureUniqueSections_eq_ok_iff] at hIds
      unfold roundTrip
      rw [hIds]
      dsimp only
      rw [Chain.run_bind]
      simp only [Chain.readText, Chain.run, hRead,
        Except.mapError, hPrepare]
  | @unplaced previous p parent cause made hIds hRead
      hPrepare hParent hText hMake =>
      rw [run_roundTrip_of_prepare hIds hRead hPrepare,
        run_writePrepared_eq_error_iff,
        run_writeText_eq_error_iff]
      left
      exact Chain.run_makeParent_eq_error_iff.mpr
        ⟨parent, cause, hParent, hText, hMake, rfl⟩
  | @unwritable previous p cause made hIds hRead hPrepare
      hMake hWrite =>
      rw [run_roundTrip_of_prepare hIds hRead hPrepare,
        run_writePrepared_eq_error_iff,
        run_writeText_eq_error_iff]
      exact .inr ⟨cause, hMake, hWrite, rfl⟩

/- A round trip fails at the first stage that fails. -/
theorem roundTrip_eq_error_iff :
    (e.roundTrip f source destination).run t =
        (.error fault, u) ↔
      Stops e f source destination t fault u := by
  refine ⟨fun hRun => ?_, Stops.run⟩
  cases hUnique : f.ensureUniqueSections with
  | error cause =>
      rcases Fragment.ensureUniqueSections_eq_error_iff.mp
          hUnique with
        ⟨id, hId, rfl⟩
      have hStops := @Stops.repeatedId e f source
        destination t id hId
      rw [hStops.run] at hRun
      cases hRun
      exact hStops
  | ok _ =>
      rw [Fragment.ensureUniqueSections_eq_ok_iff] at hUnique
      cases hRead : t.readIfExists source with
      | error cause =>
          have hStops := @Stops.unreadable e f source
            destination t cause hUnique hRead
          rw [hStops.run] at hRun
          cases hRun
          exact hStops
      | ok previous =>
          cases hPrepare : prepare source f previous with
          | error other =>
              rcases (prepare_eq_error_iff hUnique).mp
                  hPrepare with
                ⟨text, cause, rfl, hScan, rfl⟩
              have hStops := @Stops.malformed e f source
                destination t text cause hUnique hRead hScan
              rw [hStops.run] at hRun
              cases hRun
              exact hStops
          | ok p =>
              rw [run_roundTrip_of_prepare hUnique hRead
                  hPrepare, run_writePrepared_eq_error_iff,
                run_writeText_eq_error_iff] at hRun
              rcases hRun with
                hMake | ⟨cause, hMake, hWrite, rfl⟩
              · rcases Chain.run_makeParent_eq_error_iff.mp
                    hMake with
                  ⟨parent, cause, hParent, hText, hDir, rfl⟩
                exact .unplaced hUnique hRead hPrepare
                  hParent hText hDir
              · exact .unwritable hUnique hRead hPrepare
                  hMake hWrite

/- A stage that fails adds directories at most. -/
theorem Stops.addsDirectories
    (hStops : Stops e f source destination t fault u) :
    FileTree.AddsDirectories (fun _ => True) t u := by
  cases hStops with
  | repeatedId _ =>
      exact .refl _ t
  | unreadable _ _ =>
      exact .refl _ t
  | malformed _ _ _ =>
      exact .refl _ t
  | @unplaced _ _ parent _ _ _ _ _ _ _ hMake =>
      have hAdds :=
        FileTree.addsDirectories_ensureDir parent t
      rw [hMake] at hAdds
      exact hAdds
  | unwritable _ _ _ hMake _ =>
      have hAdds :=
        Chain.addsDirectories_makeParent destination t
      rw [hMake] at hAdds
      exact hAdds

end Emitter

------------------------------------------------------------
-- Failed Units
------------------------------------------------------------

/- A fault that is found before any directory is made. -/
def UnitError.IsEarly : UnitError → Prop
| .fragment _ | .read _ _ | .scan _ _ => True
| .createDir _ _ | .write _ _ => False

instance (fault : UnitError) : Decidable fault.IsEarly := by
  cases fault <;> unfold UnitError.IsEarly <;> infer_instance

/- A stage that fails early changes nothing. -/
theorem Emitter.Stops.eq_of_isEarly
    {e : Emitter}
    {f : Fragment}
    {source destination : FilePath}
    {t u : FileTree}
    {fault : UnitError}
    (hStops : Stops e f source destination t fault u)
    (hEarly : fault.IsEarly) :
    u = t := by
  cases hStops with
  | repeatedId _ =>
      rfl
  | unreadable _ _ =>
      rfl
  | malformed _ _ _ =>
      rfl
  | unplaced _ _ _ _ _ _ =>
      cases hEarly
  | unwritable _ _ _ _ _ =>
      cases hEarly

namespace SourceUnit

variable {e : Emitter} {unit : SourceUnit}
variable {t u : FileTree} {report : UnitReport}
variable {fault : UnitError}

/- Why a unit has no path: its kind or its name is missing. -/
inductive LacksPath : SourceUnit → FragmentError → Prop
| kind
    {f : Fragment}
    (hKind : f.kind ≠ .classifier) :
    LacksPath (.classifier f)
      (.unsupportedOperation .serializeClassifier f.kind)
| name
    {f : Fragment}
    (hKind : f.kind = .classifier)
    (hName : f.info.qualifiedName = none) :
    LacksPath (.classifier f) (.missingQualifiedName f.name)

/- A unit without a path fails at once. -/
theorem lacksPath_of_relative?_eq_none
    (hPath : unit.relative? e = none)
    (hRun : (unit.chain e).run t = (report, u)) :
    u = t ∧
      ∃ cause,
        report.outcome = .error (.fragment cause) ∧
          unit.LacksPath cause := by
  cases unit with
  | package module f =>
      cases hPath
  | classifier f =>
      dsimp only [relative?] at hPath
      dsimp only [chain] at hRun
      unfold Emitter.classifierChain at hRun
      by_cases hKind : f.kind = .classifier
      · rw [if_pos hKind, Option.map_eq_none_iff] at hPath
        rw [if_pos hKind] at hRun
        unfold Fragment.requireQualifiedName at hRun
        rw [hPath] at hRun
        cases hRun
        exact ⟨rfl, _, rfl, .name hKind hPath⟩
      · rw [if_neg hKind] at hRun
        cases hRun
        exact ⟨rfl, _, rfl, .kind hKind⟩

/-
  A source unit that fails leaves the bytes of every file as
  they were, and with an early fault it leaves everything as
  it was.  The error is that of the first stage that fails; a
  unit without a path fails before all stages.
-/
theorem failed_keeps_files
    (hRun : (unit.chain e).run t = (report, u))
    (hError : report.outcome = .error fault) :
    t.KeepsFiles u ∧
      (fault.IsEarly → u = t) ∧
        match unit.relative? e with
        | none =>
            ∃ cause,
              fault = .fragment cause ∧ unit.LacksPath cause
        | some relative =>
            Emitter.Stops e unit.tree (e.source relative)
              (e.destination relative) t fault u := by
  cases hPath : unit.relative? e with
  | none =>
      rcases lacksPath_of_relative?_eq_none hPath hRun with
        ⟨rfl, cause, hOutcome, hLacks⟩
      rw [hError] at hOutcome
      cases hOutcome
      refine ⟨fun _ _ => Iff.rfl, fun _ => rfl, cause, rfl,
        hLacks⟩
  | some relative =>
      rw [run_chain hPath] at hRun
      cases hRun
      have hTrip :
          (e.roundTrip unit.tree (e.source relative)
            (e.destination relative)).run t =
              (.error fault, _) :=
        Prod.ext hError rfl
      have hStops := Emitter.roundTrip_eq_error_iff.mp hTrip
      exact ⟨hStops.addsDirectories.keepsFiles,
        hStops.eq_of_isEarly, hStops⟩

/- A class without sections. -/
def bareUnit : SourceUnit :=
  .classifier
    (.classifier
      { Info.new ⟨0⟩ "A" .classifier with
        qualifiedName := some ⟨["A"]⟩ }
      none none "class A" [] none)

/- A previous file that ends inside a section. -/
def unfinishedFiles : FileTree :=
  (FileTree.empty.put ["src"] .directory).put
    ["src", "A.java"]
      (Node.ofText "class A\n// ----------- << kept >>\ncode")

/- The file that ends inside a section is not written over. -/
theorem failed_keeps_files_unfinished :
    ∃ report u cause,
      (bareUnit.chain (Emitter.new ⟨"src"⟩ "  " none)).run
          unfinishedFiles = (report, u) ∧
        report.outcome =
          .error (.scan ⟨"src/A.java"⟩ cause) ∧
        u = unfinishedFiles ∧
        scan "class A\n// ----------- << kept >>\ncode" =
          .error cause := by
  have hOutcome :
      ((bareUnit.chain (Emitter.new ⟨"src"⟩ "  " none)).run
          unfinishedFiles).1.outcome =
        .error (.scan ⟨"src/A.java"⟩
          (.unterminated ⟨"kept", by decide⟩ 2)) := by
    rfl
  cases hRun : (bareUnit.chain
      (Emitter.new ⟨"src"⟩ "  " none)).run
        unfinishedFiles with
  | mk report u =>
      rw [hRun] at hOutcome
      rcases failed_keeps_files hRun hOutcome with
        ⟨_, hEarly, _⟩
      exact ⟨report, u, _, rfl, hOutcome, hEarly trivial, rfl⟩

end SourceUnit

end Palimpsest
