import Mathlib.Data.List.Pairwise
import Palimpsest.Proofs.Output.Interleave
import Palimpsest.Proofs.Output.Task

/-
  The units of a pass do not interfere.

  Files have names with dots and directories have names
  without, different units have different files, and two
  roots that are not nested share no places inside.  So no
  unit puts anything where another one looks, except
  directories that both of them make.  Hence the units can be
  written side by side.

  Main declarations:
    * `Emitter.HasSeparateRoots`
    * `Emitter.HasShortSources`
    * `Task.Takes.ignores`
    * `Emitter.independent_jobs`
    * `Emitter.siblings_isolated`
    * `Emitter.exists_steps_of_longName`
-/

namespace Palimpsest

------------------------------------------------------------
-- Units That Are Ready
------------------------------------------------------------

namespace Chain

variable {α : Type} {path : FilePath} {t : FileTree}

/- What goes on inside a directory finds it there. -/
theorem ready_insideParent
    {next : Chain (Except UnitError α)}
    (hNext : ∀ u : FileTree, u.HasParent path → next.Ready u)
    (t : FileTree) :
    (insideParent path next).Ready t := by
  unfold insideParent
  cases hPath : path.parent? with
  | none =>
      apply hNext
      intro parent hParent
      rw [hPath] at hParent
      cases hParent
  | some parent =>
      dsimp only
      by_cases hText : parent.text = ""
      · rw [if_pos hText]
        apply hNext
        intro other hOther hNe
        rw [hPath] at hOther
        cases hOther
        exact absurd hText hNe
      · rw [if_neg hText]
        apply Ready.step (a := .ensureDir parent) rfl trivial
        intro u _
        dsimp only [Action.perform]
        cases hMake : u.ensureDir parent with
        | mk answer made =>
            cases answer with
            | error fault =>
                exact .done _ made
            | ok _ =>
                apply hNext
                intro other hOther _
                rw [hPath] at hOther
                cases hOther
                exact FileTree.isDirectory_of_ensureDir hText
                  hMake

theorem ready_writeText
    (path : FilePath)
    (text : String)
    (t : FileTree) :
    (writeText path text).Ready t := by
  apply ready_insideParent
  intro u hParent
  exact .step (a := .write path text) rfl hParent
    (fun _ _ => .done _ _)

theorem ready_touch
    (path : FilePath)
    (text : String)
    (t : FileTree) :
    (touch path text).Ready t := by
  apply ready_insideParent
  intro u hParent
  exact .step (a := .create path text) rfl hParent
    (fun _ _ => .done _ _)

end Chain

theorem Emitter.ready_roundTrip
    (e : Emitter)
    (f : Fragment)
    (source destination : FilePath)
    (t : FileTree) :
    (e.roundTrip f source destination).Ready t := by
  unfold roundTrip
  cases f.ensureUniqueSections with
  | error fault =>
      exact .done _ t
  | ok _ =>
      apply Chain.Ready.step (a := .read source) rfl trivial
      intro u _
      dsimp only [Action.perform]
      cases u.readIfExists source with
      | error fault =>
          exact .done _ u
      | ok previous =>
          dsimp only [Except.mapError, Chain.bind]
          cases prepare source f previous with
          | error fault =>
              exact .done _ u
          | ok p =>
              exact Chain.ready_map
                (Chain.ready_writeText _ _ u) _

/- Every unit writes only into directories that it makes. -/
theorem Task.ready
    (e : Emitter)
    (task : Task)
    (t : FileTree) :
    (task.chain e).Ready t := by
  cases task with
  | directory module name =>
      apply Chain.ready_map
      exact .step (a := .ensureDir _) rfl trivial
        (fun _ _ => .done _ _)
  | source unit =>
      dsimp only [chain]
      rcases unit.chain_cases e with
        ⟨relative, _, hChain⟩ | ⟨fault, hChain⟩
      · rw [hChain]
        exact Chain.ready_map (e.ready_roundTrip _ _ _ t) _
      · rw [hChain]
        exact .done _ t
  | template i s =>
      dsimp only [chain]
      rcases e.templateChain_cases i s with
        ⟨name, _, hChain⟩ | ⟨fault, hChain⟩
      · rw [hChain]
        exact Chain.ready_map (Chain.ready_touch _ _ t) _
      · rw [hChain]
        exact .done _ t
  | refused name kind fault =>
      exact .done _ t

------------------------------------------------------------
-- Places Of Files And Directories
------------------------------------------------------------

namespace FilePath

variable {path other : FilePath}

/- Below a root, a path of names ends in the same name. -/
theorem endsInName_join
    (hPath : ∀ piece ∈ path.pieces, ¬ IsIdle piece)
    (root : FilePath) :
    (root.join path).EndsInName := by
  rcases exists_pieces_join (not_isAbsolute_of_names hPath)
      root with
    ⟨others, hPieces, _⟩
  have hSome : path.pieces ≠ [] := Text.splitAt_ne_nil _
  unfold EndsInName
  rw [hPieces, List.getLast?_append_of_ne_nil _ hSome,
    List.getLast?_eq_some_getLast hSome]
  exact ⟨_, rfl, hPath _ (List.getLast_mem hSome)⟩

end FilePath

namespace Emitter

variable {e : Emitter} {relative other : FilePath}
variable {place : Location}

/- The directories below which units read and write. -/
def IsRoot
    (e : Emitter)
    (root : FilePath) : Prop :=
  root = e.base ∨ root = e.outputRoot

/- Neither root is strictly inside the other one. -/
def HasSeparateRoots (e : Emitter) : Prop :=
  e.base.place <+: e.outputRoot.place ∨
      e.outputRoot.place <+: e.base.place →
    e.base.place = e.outputRoot.place

/- A place on the way to a directory of units. -/
def IsDirectoryPlace
    (e : Emitter)
    (place : Location) : Prop :=
  ∃ root directories,
    e.IsRoot root ∧
      (∀ piece ∈ directories, FilePath.IsBare piece) ∧
        place <+: root.place ++ directories

/- The place of a file of units. -/
def IsFilePlace
    (e : Emitter)
    (relative : FilePath)
    (place : Location) : Prop :=
  ∃ root, e.IsRoot root ∧ place = (root.join relative).place

theorem IsRegular.forward
    (hRegular : e.IsRegular)
    {root : FilePath}
    (hRoot : e.IsRoot root) :
    root.IsForward := by
  rcases hRoot with rfl | rfl
  · exact hRegular.base
  · exact hRegular.root

/- Roots with a place in common are at the same place. -/
theorem HasSeparateRoots.eq
    (hRoots : e.HasSeparateRoots)
    {first second : FilePath}
    (hFirst : e.IsRoot first)
    (hSecond : e.IsRoot second)
    (hInFirst : first.place <+: place)
    (hInSecond : second.place <+: place) :
    first.place = second.place := by
  have hNested :=
    List.prefix_or_prefix_of_prefix hInFirst hInSecond
  rcases hFirst with rfl | rfl
  · rcases hSecond with rfl | rfl
    · rfl
    · exact hRoots hNested
  · rcases hSecond with rfl | rfl
    · exact (hRoots hNested.symm).symm
    · rfl

/- No file is on the way to a directory. -/
theorem IsFilePlace.not_isDirectoryPlace
    (hFile : e.IsFilePlace relative place)
    (hRegular : e.IsRegular)
    (hRoots : e.HasSeparateRoots)
    (hPath : relative.IsUnitFile) :
    ¬ e.IsDirectoryPlace place := by
  rintro ⟨root, directories, hRoot, hBare, hLead⟩
  rcases hFile with ⟨other, hOther, rfl⟩
  rcases hPath.join (hRegular.forward hOther) with
    ⟨_, front, file, _, hDotted, _, _, hPlace⟩
  rw [hPlace, List.append_assoc] at hLead
  have hSame := hRoots.eq hOther hRoot
    ((List.prefix_append _ _).trans hLead)
    (List.prefix_append _ _)
  rw [hSame, List.prefix_append_right_inj] at hLead
  have hMem : file ∈ directories := hLead.subset (by simp)
  exact (hBare file hMem).not_isDotted hDotted

/- Different files are at different places. -/
theorem IsFilePlace.eq
    (hFile : e.IsFilePlace relative place)
    (hFileToo : e.IsFilePlace other place)
    (hRoots : e.HasSeparateRoots)
    (hPath : relative.IsUnitFile)
    (hPathToo : other.IsUnitFile) :
    relative = other := by
  rcases hFile with ⟨first, hFirst, hPlace⟩
  rcases hFileToo with ⟨second, hSecond, hPlaceToo⟩
  have hNames := hPath.not_isIdle
  have hNamesToo := hPathToo.not_isIdle
  rw [FilePath.place_join
    (FilePath.not_isAbsolute_of_names hNames),
    FilePath.names_eq_pieces hNames] at hPlace
  rw [FilePath.place_join
    (FilePath.not_isAbsolute_of_names hNamesToo),
    FilePath.names_eq_pieces hNamesToo] at hPlaceToo
  have hSame := hRoots.eq hFirst hSecond
    (hPlace ▸ List.prefix_append _ _)
    (hPlaceToo ▸ List.prefix_append _ _)
  rw [hPlace, hSame] at hPlaceToo
  exact FilePath.eq_of_pieces
    (List.append_cancel_left hPlaceToo)

end Emitter

------------------------------------------------------------
-- Where Units Look
------------------------------------------------------------

namespace Task

variable {e : Emitter} {task other : Task} {a b : Action}
variable {place : Location} {n : Node}

/- A unit makes directories and writes the file it watches. -/
theorem Takes.puts
    (hTakes : task.Takes e a)
    (hRegular : e.IsRegular)
    (hNames : task.HasParsedName)
    (hPuts : a.Puts place n) :
    (n = .directory ∧ e.IsDirectoryPlace place) ∨
      a.Watches place ∧
        ∃ relative ∈ task.file? e,
          e.IsFilePlace relative place := by
  cases hTakes with
  | @directory module name =>
      have hPath := Emitter.isUnitDirectory_dirPath
        (hNames name rfl)
      have hPlace := (hPath.join hRegular.root).2
      exact .inl ⟨hPuts.2, e.outputRoot, _, .inr rfl, hPath,
        hPlace ▸ hPuts.1⟩
  | @parent _ relative parent hFile hParent _ =>
      have hPath := isUnitFile_of_file? hRegular hNames hFile
      rcases hPath.parent hRegular.root hParent with
        ⟨_, directories, hBare, hPlace⟩
      exact .inl ⟨hPuts.2, e.outputRoot, directories,
        .inr rfl, hBare, hPlace ▸ hPuts.1⟩
  | read _ =>
      cases hPuts
  | write hFile _ =>
      exact .inr ⟨hPuts.1, _, hFile, e.outputRoot, .inr rfl,
        hPuts.1⟩
  | create hFile =>
      exact .inr ⟨hPuts.1, _, hFile, e.outputRoot, .inr rfl,
        hPuts.1⟩

/- A unit watches only its own file, below either root. -/
theorem Takes.watches
    (hTakes : task.Takes e a)
    (hWatches : a.Watches place) :
    ∃ relative ∈ task.file? e,
      e.IsFilePlace relative place := by
  cases hTakes with
  | directory =>
      cases hWatches
  | parent _ _ _ =>
      cases hWatches
  | read hFile =>
      exact ⟨_, hFile, e.base, .inl rfl, hWatches⟩
  | write hFile _ =>
      exact ⟨_, hFile, e.outputRoot, .inr rfl, hWatches⟩
  | create hFile =>
      exact ⟨_, hFile, e.outputRoot, .inr rfl, hWatches⟩

/- On its way a unit passes only directories. -/
theorem Takes.passes
    (hTakes : task.Takes e a)
    (hRegular : e.IsRegular)
    (hNames : task.HasParsedName)
    (hPasses : a.Passes place) :
    e.IsDirectoryPlace place := by
  cases hTakes with
  | @directory module name =>
      have hPath := Emitter.isUnitDirectory_dirPath
        (hNames name rfl)
      have hPlace := (hPath.join hRegular.root).2
      exact ⟨e.outputRoot, _, .inr rfl, hPath,
        hPlace ▸ hPasses⟩
  | @parent _ relative parent hFile hParent _ =>
      have hPath := isUnitFile_of_file? hRegular hNames hFile
      rcases hPath.parent hRegular.root hParent with
        ⟨_, directories, hBare, hPlace⟩
      exact ⟨e.outputRoot, directories, .inr rfl, hBare,
        hPlace ▸ hPasses⟩
  | @read unit relative hFile =>
      have hPath : relative.IsUnitFile :=
        isUnitFile_of_file? hRegular hNames hFile
      rcases hPath.join hRegular.base with
        ⟨_, front, file, hBare, _, _, _, hPlace⟩
      rcases hPasses with ⟨hLead, hNe⟩
      have hSource :
          (e.source relative).place =
            e.base.place ++ front ++ [file] :=
        hPlace
      rw [hSource] at hLead hNe
      rcases List.prefix_concat_iff.mp hLead with
        hWhole | hFront
      · exact absurd hWhole hNe
      · exact ⟨e.base, front, .inl rfl, hBare, hFront⟩
  | write _ _ =>
      cases hPasses
  | create _ =>
      cases hPasses

/-
  A unit ignores what a unit with another file does: that one
  puts directories, which are at no place of a file, and its
  own file, which is at no place of another file and on no
  way to a directory.
-/
theorem Takes.ignores
    (hTakes : task.Takes e a)
    (hOther : other.Takes e b)
    (hRegular : e.IsRegular)
    (hRoots : e.HasSeparateRoots)
    (hNames : task.HasParsedName)
    (hOtherNames : other.HasParsedName)
    (hFiles : task.Differs e other) :
    a.Ignores b := by
  intro place n hPuts
  rcases hOther.puts hRegular hOtherNames hPuts with
    ⟨hNode, hDirectory⟩ | ⟨_, relative, hFile, hPlace⟩
  · refine ⟨fun hWatches => ?_, fun _ => hNode⟩
    rcases hTakes.watches hWatches with
      ⟨own, hOwn, hOwnPlace⟩
    exact hOwnPlace.not_isDirectoryPlace hRegular hRoots
      (isUnitFile_of_file? hRegular hNames hOwn) hDirectory
  · have hPath :=
      isUnitFile_of_file? hRegular hOtherNames hFile
    constructor
    · intro hWatches
      rcases hTakes.watches hWatches with
        ⟨own, hOwn, hOwnPlace⟩
      have hSame := hOwnPlace.eq hPlace hRoots
        (isUnitFile_of_file? hRegular hNames hOwn) hPath
      exact hFiles own hOwn (hSame ▸ hFile)
    · intro hPasses
      exact absurd (hTakes.passes hRegular hNames hPasses)
        (hPlace.not_isDirectoryPlace hRegular hRoots hPath)

/- Every action of a unit is plain, but for long names. -/
theorem Takes.isPlain_or_read
    (hTakes : task.Takes e a)
    (hRegular : e.IsRegular)
    (hNames : task.HasParsedName) :
    a.IsPlain ∨ ∃ path, a = .read path := by
  cases hTakes with
  | @directory module name =>
      have hPath := Emitter.isUnitDirectory_dirPath
        (hNames name rfl)
      exact .inl ⟨(hPath.join hRegular.root).1,
        .inr (FilePath.endsInName_join hPath.not_isIdle _)⟩
  | @parent _ relative parent hFile hParent _ =>
      have hPath := isUnitFile_of_file? hRegular hNames hFile
      exact .inl ⟨(hPath.parent hRegular.root hParent).1,
        (FilePath.isParent_of_parent? hParent).trimmed⟩
  | @read unit relative _ =>
      exact .inr ⟨_, rfl⟩
  | @write unit relative previous p hFile _ =>
      have hPath : relative.IsUnitFile :=
        isUnitFile_of_file? hRegular hNames hFile
      exact .inl ⟨(hPath.join hRegular.root).1,
        FilePath.endsInName_join hPath.not_isIdle _⟩
  | @create i s relative hFile =>
      have hPath : relative.IsUnitFile :=
        isUnitFile_of_file? hRegular hNames hFile
      exact .inl ⟨(hPath.join hRegular.root).1,
        FilePath.endsInName_join hPath.not_isIdle _⟩

/- With short names, every action of a unit is plain. -/
theorem Takes.isPlain
    (hTakes : task.Takes e a)
    (hRegular : e.IsRegular)
    (hNames : task.HasParsedName)
    (hShort : ∀ unit ∈ task.source?,
      ∀ relative ∈ unit.relative? e,
        ∀ name ∈ (e.source relative).names,
          name.utf8ByteSize ≤ FileTree.maxNameSize) :
    a.IsPlain := by
  rcases hTakes.isPlain_or_read hRegular hNames with
    hPlain | ⟨path, rfl⟩
  · exact hPlain
  · cases hTakes with
    | @read unit relative hFile =>
        have hPath : relative.IsUnitFile :=
          isUnitFile_of_file? hRegular hNames hFile
        exact ⟨(hPath.join hRegular.base).1,
          FilePath.endsInName_join hPath.not_isIdle _,
          hShort unit rfl relative hFile⟩

end Task

------------------------------------------------------------
-- Units Side By Side
------------------------------------------------------------

namespace Emitter

variable {e : Emitter} {units : List Fragment}
variable {t u : FileTree} {report : Report}

/-
  The names on the way to each file that is read back are
  short enough for files to have them.
-/
def HasShortSources
    (e : Emitter)
    (units : List Fragment) : Prop :=
  ∀ unit ∈ Fragment.taskSources units,
    ∀ relative ∈ unit.relative? e,
      ∀ name ∈ (e.source relative).names,
        name.utf8ByteSize ≤ FileTree.maxNameSize

/- No two units of a pass have the same file. -/
theorem pairwise_files
    (hFiles : (Fragment.taskFiles e units).Nodup) :
    (Fragment.tasksList units).Pairwise (Task.Differs e) := by
  unfold List.Nodup Fragment.taskFiles at hFiles
  rw [List.pairwise_filterMap] at hFiles
  apply hFiles.imp
  intro task other hDiffer relative hFile hFileToo
  exact hDiffer relative hFile relative hFileToo rfl

theorem isParsed_of_mem
    {task : Task}
    (hNames :
      ∀ name ∈ Fragment.taskNames units, name.IsParsed)
    (hTask : task ∈ Fragment.tasksList units) :
    task.HasParsedName :=
  fun name hName =>
    hNames name (List.mem_filterMap.mpr ⟨task, hTask, hName⟩)

/- Units with different files do not interfere. -/
theorem independent_jobs
    (hRegular : e.IsRegular)
    (hRoots : e.HasSeparateRoots)
    (hNames :
      ∀ name ∈ Fragment.taskNames units, name.IsParsed)
    (hFiles : (Fragment.taskFiles e units).Nodup)
    (hShort : e.HasShortSources units)
    (hRooted : t.IsRooted) :
    Chain.Independent (Job.chainsList (e.jobs units)) t := by
  refine ⟨?_, e.forall_mem_chainsList_jobs ?_, hRooted⟩
  · rw [e.chainsList_jobs, List.pairwise_map]
    apply (pairwise_files hFiles).imp_of_mem
    intro task other hTask hOther hDiffer a b hCan hCanToo
    have hTakes := Task.takes_of_can hCan
    have hTakesToo := Task.takes_of_can hCanToo
    have hOwn := isParsed_of_mem hNames hTask
    have hOwnToo := isParsed_of_mem hNames hOther
    exact ⟨hTakes.ignores hTakesToo hRegular hRoots hOwn
        hOwnToo hDiffer,
      hTakesToo.ignores hTakes hRegular hRoots hOwnToo hOwn
        hDiffer.symm⟩
  · intro task hTask
    refine ⟨fun a hCan => ?_, task.ready e t⟩
    apply (Task.takes_of_can hCan).isPlain hRegular
      (isParsed_of_mem hNames hTask)
    intro unit hUnit
    exact hShort unit
      (List.mem_filterMap.mpr ⟨task, hTask, hUnit⟩)

section File

variable {task : Task} {relative : FilePath}

/- At the place of its file, a unit puts what it watches. -/
theorem watches_of_puts
    {a : Action}
    {n : Node}
    (hRegular : e.IsRegular)
    (hRoots : e.HasSeparateRoots)
    (hNames : task.HasParsedName)
    (hFile : task.file? e = some relative)
    (hCan : (task.chain e).Can a)
    (hPuts : a.Puts (e.destination relative).place n) :
    a.Watches (e.destination relative).place := by
  have hPlace :
      e.IsFilePlace relative (e.destination relative).place :=
    ⟨e.outputRoot, .inr rfl, rfl⟩
  rcases (Task.takes_of_can hCan).puts hRegular hNames hPuts
    with ⟨_, hDirectory⟩ | ⟨hWatches, _⟩
  · exact absurd hDirectory
      (hPlace.not_isDirectoryPlace hRegular hRoots
        (Task.isUnitFile_of_file? hRegular hNames hFile))
  · exact hWatches

/- No other unit puts anything at the place of a file. -/
theorem not_puts_of_ne
    {other : Task}
    {a : Action}
    (hRegular : e.IsRegular)
    (hRoots : e.HasSeparateRoots)
    (hNames :
      ∀ name ∈ Fragment.taskNames units, name.IsParsed)
    (hFiles : (Fragment.taskFiles e units).Nodup)
    (hTask : task ∈ Fragment.tasksList units)
    (hFile : task.file? e = some relative)
    (hOther : other ∈ Fragment.tasksList units)
    (hNe : task ≠ other)
    (hCan : (other.chain e).Can a)
    (n : Node) :
    ¬ a.Puts (e.destination relative).place n := by
  intro hPuts
  have hOwn := isParsed_of_mem hNames hTask
  have hOwnToo := isParsed_of_mem hNames hOther
  have hPath := Task.isUnitFile_of_file? hRegular hOwn hFile
  have hPlace :
      e.IsFilePlace relative (e.destination relative).place :=
    ⟨e.outputRoot, .inr rfl, rfl⟩
  rcases (Task.takes_of_can hCan).puts hRegular hOwnToo hPuts
    with ⟨_, hDirectory⟩ | ⟨_, same, hSame, hSamePlace⟩
  · exact hPlace.not_isDirectoryPlace hRegular hRoots hPath
      hDirectory
  · have hEq := hPlace.eq hSamePlace hRoots hPath
      (Task.isUnitFile_of_file? hRegular hOwnToo hSame)
    subst hEq
    have hSymm : Std.Symm (Task.Differs e) :=
      ⟨fun _ _ => Task.Differs.symm⟩
    exact (pairwise_files hFiles).forall hTask hOther hNe
      relative hFile hSame

/-
  The file of a unit is left as the unit leaves it alone, or
  as it was if the unit does not get its turn.
-/
theorem at?_file_runList
    (hRegular : e.IsRegular)
    (hRoots : e.HasSeparateRoots)
    (hNames :
      ∀ name ∈ Fragment.taskNames units, name.IsParsed)
    (hFiles : (Fragment.taskFiles e units).Nodup)
    (hShort : e.HasShortSources units)
    (hRooted : t.IsRooted)
    (hTask : task ∈ Fragment.tasksList units)
    (hFile : task.file? e = some relative) :
    (task.chain e ∈ Job.ranList t (e.jobs units) →
        (Job.runList (e.jobs units) t).2.at?
            (e.destination relative).place =
          ((task.chain e).run t).2.at?
            (e.destination relative).place) ∧
      (task.chain e ∉ Job.ranList t (e.jobs units) →
        (Job.runList (e.jobs units) t).2.at?
            (e.destination relative).place =
          t.at? (e.destination relative).place) := by
  have hIndependent := independent_jobs hRegular hRoots
    hNames hFiles hShort hRooted
  have hAlone := Job.runsAlone_runList hIndependent
  have hOwn := isParsed_of_mem hNames hTask
  have hOthers : ∀ c ∈ Job.ranList t (e.jobs units),
      c ≠ task.chain e → ∀ a, c.Can a → ∀ n,
        ¬ a.Puts (e.destination relative).place n := by
    intro c hMem hNe a hCan n
    have hChain := (Job.ranList_sublist t _).subset hMem
    rw [e.chainsList_jobs] at hChain
    rcases List.mem_map.mp hChain with ⟨other, hOther, rfl⟩
    apply not_puts_of_ne hRegular hRoots hNames hFiles hTask
      hFile hOther _ hCan
    rintro rfl
    exact hNe rfl
  constructor
  · intro hRan
    by_cases hWatches : ∃ a,
        (task.chain e).Can a ∧
          a.Watches (e.destination relative).place
    · rcases hWatches with ⟨a, hCan, hWatched⟩
      exact ((hAlone.files _ hRan a hCan).watched _
        hWatched).symm
    · have hNever : ∀ a, (task.chain e).Can a → ∀ n,
          ¬ a.Puts (e.destination relative).place n := by
        intro a hCan n hPuts
        exact hWatches ⟨a, hCan,
          watches_of_puts hRegular hRoots hOwn hFile hCan
            hPuts⟩
      have hSound := hIndependent.sound _
        ((Job.ranList_sublist t _).subset hRan)
      rw [Chain.at?_run hSound.plain hNever t]
      apply hAlone.others
      intro c hMem
      by_cases hSame : c = task.chain e
      · rw [hSame]
        exact hNever
      · exact hOthers c hMem hSame
  · intro hNot
    apply hAlone.others
    intro c hMem
    apply hOthers c hMem
    rintro rfl
    exact hNot hMem

end File

/-
  Sibling units do not interfere.  Every interleaving of their
  actions can be brought to an end, and whenever it ends, the
  reports and the files are those of the units one after
  another.  Each unit is reported as it is when it runs alone,
  and its file is left as it leaves it alone; only those in a
  module whose directory fails do not get their turn.
-/
theorem siblings_isolated
    (hRegular : e.IsRegular)
    (hRoots : e.HasSeparateRoots)
    (hNames :
      ∀ name ∈ Fragment.taskNames units, name.IsParsed)
    (hFiles : (Fragment.taskFiles e units).Nodup)
    (hShort : e.HasShortSources units)
    (hRooted : t.IsRooted)
    (hRun : e.emitAll units t = (report, u)) :
    (∀ rest v,
      Relation.ReflTransGen Job.Step (e.jobs units, t)
          (rest, v) →
        (∃ done w,
          Job.outcomes? done = some report.units ∧
            w.Same u ∧
              Relation.ReflTransGen Job.Step (rest, v)
                (done, w)) ∧
          ∀ reports,
            Job.outcomes? rest = some reports →
              reports = report.units ∧ v.Same u) ∧
      report.units =
          (Job.ranList t (e.jobs units)).map
            (fun c => (c.run t).1) ∧
        ∀ task ∈ Fragment.tasksList units,
          ∀ relative ∈ task.file? e,
            (task.chain e ∈ Job.ranList t (e.jobs units) →
              u.at? (e.destination relative).place =
                ((task.chain e).run t).2.at?
                  (e.destination relative).place) ∧
            (task.chain e ∉ Job.ranList t (e.jobs units) →
              u.at? (e.destination relative).place =
                t.at? (e.destination relative).place) := by
  have hIndependent := independent_jobs hRegular hRoots
    hNames hFiles hShort hRooted
  cases hRun
  refine ⟨?_, (Job.runsAlone_runList hIndependent).reports,
    ?_⟩
  · intro rest v hSteps
    constructor
    · have hAgree := (Job.agree_of_steps hSteps hIndependent).2
      rcases Job.exists_steps_runList rest v with
        ⟨done, hDone, hMore⟩
      refine ⟨done, _, ?_, hAgree.2, hMore⟩
      rw [hDone, hAgree.1]
    · intro reports hDone
      exact Job.interleaved_eq hSteps hDone hIndependent
  · intro task hTask relative hFile
    exact at?_file_runList hRegular hRoots hNames hFiles
      hShort hRooted hTask hFile

/- A class without members. -/
def plainClass (name : String) : Fragment :=
  .classifier
    { Info.new ⟨0⟩ name .classifier with
      qualifiedName := some ⟨[name]⟩ }
    none none ("class " ++ name) [] none

/- A module with a class in it, and two classes beside it. -/
def siblingUnits : List Fragment :=
  [.module
      { Info.new ⟨0⟩ "lib" .module with
        qualifiedName := some ⟨["lib"]⟩ }
      none [plainClass "C"],
    plainClass "A", plainClass "B"]

/- A file where the directory of the module belongs. -/
def siblingFiles : FileTree :=
  ((FileTree.empty.ensureDir ⟨"src"⟩).2.write ⟨"src/lib"⟩
    "").2

/- The place of all files of the example. -/
def siblingEmitter : Emitter :=
  Emitter.new ⟨"src"⟩ "  " none

/-
  The classes take turns, and the module fails without its
  class: the reports and files are those of one after another.
-/
theorem siblings_isolated_sample :
    ∃ rest v reports,
      Relation.ReflTransGen Job.Step
          (siblingEmitter.jobs siblingUnits, siblingFiles)
          (rest, v) ∧
        Job.outcomes? rest = some reports ∧
          reports =
            (siblingEmitter.emitAll siblingUnits
              siblingFiles).1.units ∧
          v.Same
            (siblingEmitter.emitAll siblingUnits
              siblingFiles).2 ∧
          reports.map (fun r => decide r.IsSuccess) =
            [false, true, true] := by
  have hRegular : siblingEmitter.IsRegular :=
    ⟨by decide +kernel, by decide +kernel, by decide,
      by decide +kernel, by decide +kernel⟩
  have hNames :
      ∀ name ∈ Fragment.taskNames siblingUnits,
        name.IsParsed := by
    have hAll :
        Fragment.taskNames siblingUnits =
          [⟨["lib"]⟩, ⟨["C"]⟩, ⟨["A"]⟩, ⟨["B"]⟩] :=
      rfl
    rw [hAll]
    simp only [List.forall_mem_cons]
    exact ⟨⟨"lib", by decide +kernel⟩,
      ⟨"C", by decide +kernel⟩, ⟨"A", by decide +kernel⟩,
      ⟨"B", by decide +kernel⟩, by simp⟩
  have hFiles :
      (Fragment.taskFiles siblingEmitter siblingUnits).Nodup :=
    by decide +kernel
  have hShort : siblingEmitter.HasShortSources siblingUnits :=
    by
      unfold HasShortSources
      decide +kernel
  have hRooted : siblingFiles.IsRooted :=
    (FileTree.isRooted_empty.ensureDir _).write _ _
  have hDone :
      (Job.outcomes? (Job.rounds 3
        (siblingEmitter.jobs siblingUnits,
          siblingFiles)).1).map
          (fun reports =>
            reports.map (fun r => decide r.IsSuccess)) =
        some [false, true, true] := by
    decide +kernel
  rcases Option.map_eq_some_iff.mp hDone with
    ⟨reports, hReports, hOutcomes⟩
  have hSteps := Job.steps_rounds 3
    (siblingEmitter.jobs siblingUnits, siblingFiles)
  generalize
    Job.rounds 3
      (siblingEmitter.jobs siblingUnits, siblingFiles) = s
    at hReports hSteps
  rcases s with ⟨rest, v⟩
  cases hRun :
      siblingEmitter.emitAll siblingUnits siblingFiles with
  | mk report u =>
      rcases siblings_isolated hRegular (fun _ => rfl) hNames
          hFiles hShort hRooted hRun with ⟨hEnds, _, _⟩
      rcases (hEnds rest v hSteps).2 reports hReports with
        ⟨hUnits, hSame⟩
      exact ⟨rest, v, reports, hSteps, hReports, hUnits,
        hSame, hOutcomes⟩

/-
  A unit without repeated sections reads first.  A fault is
  its end, and without a previous text it writes.
-/
theorem exists_step_sourceChain
    (e : Emitter)
    {f : Fragment}
    (hIds : f.ensureUniqueSections = .ok ())
    (relative : FilePath)
    (name : String)
    (kind : UnitKind) :
    ∃ next,
      e.sourceChain f relative name kind =
          Chain.step (.read (e.source relative)) next ∧
        (∀ fault,
          next (.error fault) =
            .done ⟨name, kind, some (e.destination relative),
              .error (.read (e.source relative) fault)⟩) ∧
        next (.ok none) =
          (e.writePrepared (e.destination relative)
              ⟨f, Summary.blank⟩).map
            (fun outcome =>
              ⟨name, kind, some (e.destination relative),
                outcome⟩) := by
  unfold sourceChain roundTrip
  rw [hIds]
  exact ⟨_, rfl, fun _ => rfl, rfl⟩

/- An export that reads below a directory with a name. -/
def namedEmitter (name : String) : Emitter :=
  Emitter.new ⟨Text.joinWith "/" ["x", name]⟩ "  "
    (some ⟨"x/out"⟩)

/- Two classes. -/
def namedUnits : List Fragment :=
  [plainClass "A", plainClass "B"]

/- A legal name that is too long for a file. -/
structure IsLongName (name : String) : Prop where
  bare : FilePath.IsBare name
  long : FileTree.maxNameSize < name.utf8ByteSize
  legal : '\x00' ∉ name.toList ∧ name.utf8ByteSize ≤ 1000

section LongName

variable {name : String} {path : FilePath}

theorem pieces_namedBase (hName : FilePath.IsBare name) :
    (namedEmitter name).base.pieces = ["x", name] := by
  apply FilePath.pieces_mk_joinWith
  · rw [List.forall_mem_cons, List.forall_mem_singleton]
    exact ⟨by decide +kernel, hName.2.2⟩
  · simp

theorem not_isIdle_namedBase (hName : FilePath.IsBare name) :
    ∀ piece ∈ (namedEmitter name).base.pieces,
      ¬ FilePath.IsIdle piece := by
  rw [pieces_namedBase hName, List.forall_mem_cons,
    List.forall_mem_singleton]
  exact ⟨by decide, hName.not_isIdle⟩

theorem start_namedBase (hName : FilePath.IsBare name) :
    Location.start (namedEmitter name).base = [] :=
  if_neg (FilePath.not_isAbsolute_of_names
    (not_isIdle_namedBase hName))

theorem place_namedBase (hName : FilePath.IsBare name) :
    (namedEmitter name).base.place = ["x", name] := by
  unfold FilePath.place
  rw [FilePath.names_eq_pieces (not_isIdle_namedBase hName),
    start_namedBase hName, pieces_namedBase hName]
  rfl

theorem isRegular_namedEmitter
    (hName : FilePath.IsBare name) :
    (namedEmitter name).IsRegular := by
  refine ⟨?_, ?_, ?_, ?_, ?_⟩
  · unfold FilePath.IsForward
    rw [pieces_namedBase hName, List.mem_cons,
      List.mem_singleton]
    rintro (hX | hDots)
    · exact absurd hX (by decide)
    · exact hName.ne_dots hDots.symm
  · show FilePath.IsForward ⟨"x/out"⟩
    decide +kernel
  · show "java" ≠ ""
    decide
  · show FilePath.separator ∉ "java".toList
    decide +kernel
  · show FilePath.separator ∉ "package-info".toList ∧
      '.' ∉ "package-info".toList
    decide +kernel

theorem hasSeparateRoots_namedEmitter
    (hName : IsLongName name) :
    (namedEmitter name).HasSeparateRoots := by
  have hOut : name ≠ "out" := by
    rintro rfl
    exact absurd hName.long (by decide)
  have hRoot :
      (namedEmitter name).outputRoot.place = ["x", "out"] := by
    show FilePath.place ⟨"x/out"⟩ = ["x", "out"]
    decide +kernel
  unfold HasSeparateRoots
  rw [place_namedBase hName.bare, hRoot]
  rintro (hNested | hNested)
  · exact absurd (List.cons.inj (List.cons.inj
      (hNested.eq_of_length (by simp))).2).1 hOut
  · exact absurd (List.cons.inj (List.cons.inj
      (hNested.eq_of_length (by simp))).2).1.symm hOut

theorem pieces_namedSource
    (hName : FilePath.IsBare name)
    (hPath : ¬ path.IsAbsolute) :
    ((namedEmitter name).source path).pieces =
      "x" :: name :: path.pieces := by
  have hJoin := FilePath.pieces_join_of_names
    (not_isIdle_namedBase hName) hPath
  rw [pieces_namedBase hName] at hJoin
  exact hJoin

theorem text_namedSource
    (hName : FilePath.IsBare name)
    (hPath : ¬ path.IsAbsolute) :
    ((namedEmitter name).source path).text =
      "x" ++ "/" ++ name ++ "/" ++ path.text := by
  have hSome : path.pieces ≠ [] := Text.splitAt_ne_nil _
  apply String.toList_inj.mp
  rw [← FilePath.text_eq_joinWith
      ((namedEmitter name).source path),
    pieces_namedSource hName hPath,
    Text.toList_joinWith_cons "/" "x" (by simp),
    Text.toList_joinWith_cons "/" name hSome,
    FilePath.text_eq_joinWith]
  simp only [String.toList_append, List.append_assoc]

theorem isLegal_namedSource
    (hName : IsLongName name)
    (hPath : ¬ path.IsAbsolute)
    (hZero : '\x00' ∉ path.text.toList)
    (hSize : path.text.utf8ByteSize ≤ 1000) :
    FileTree.IsLegal ((namedEmitter name).source path) := by
  have hX : "x".utf8ByteSize = 1 := by decide
  have hSlash : "/".utf8ByteSize = 1 := by decide
  have hNameSize := hName.legal.2
  unfold FileTree.IsLegal FileTree.maxPathSize
  rw [text_namedSource hName.bare hPath]
  refine ⟨?_, ?_, ?_⟩
  · simp [hZero, hName.legal.1]
  · simp
  · rw [String.utf8ByteSize_append, String.utf8ByteSize_append,
      String.utf8ByteSize_append, String.utf8ByteSize_append,
      hX, hSlash]
    omega

/-
  A name that is too long is no fault unless the directory in
  front of it is there.
-/
theorem readIfExists_namedSource
    (hName : IsLongName name)
    (hPath : ¬ path.IsAbsolute)
    (hZero : '\x00' ∉ path.text.toList)
    (hSize : path.text.utf8ByteSize ≤ 1000)
    (t : FileTree) :
    (t.at? ["x"] = none →
        t.readIfExists ((namedEmitter name).source path) =
          .ok none) ∧
      (t.at? ["x"] = some .directory →
        t.readIfExists ((namedEmitter name).source path) =
          .error .nameTooLong) := by
  have hLegal := isLegal_namedSource hName hPath hZero hSize
  have hStart :
      Location.start ((namedEmitter name).source path) = [] :=
    (FilePath.start_join hPath _).trans
      (start_namedBase hName.bare)
  have hRoot : t.at? [] = some .directory := rfl
  have hShort : ¬ FileTree.maxNameSize < "x".utf8ByteSize := by
    decide
  have hStep : Location.advance [] "x" = ["x"] := by
    decide
  unfold FileTree.readIfExists FileTree.read FileTree.locate
  rw [FileTree.locatePieces_of_isLegal hLegal, hStart,
    pieces_namedSource hName.bare hPath, FileTree.walk, hRoot]
  dsimp only
  rw [if_neg hShort, hStep, FileTree.walk]
  constructor
  · intro hNone
    rw [hNone]
  · intro hNode
    rw [hNode]
    dsimp only
    rw [if_pos hName.long]

theorem destination_named
    (name : String)
    (path : FilePath) :
    (namedEmitter name).destination path =
      FilePath.join ⟨"x/out"⟩ path :=
  rfl

/- What is written does not depend on the name. -/
theorem writePrepared_named
    (name : String)
    (path : FilePath)
    (p : Prepared) :
    (namedEmitter name).writePrepared path p =
      (namedEmitter "y").writePrepared path p := by
  have hRender (name : String) :
      (namedEmitter name).render p.tree =
        p.tree.render "  " .inline :=
    rfl
  unfold writePrepared
  rw [hRender name, hRender "y"]

/- What a class does after no previous text was found. -/
def writeClass
    (unit : String)
    (path : FilePath) : Chain UnitReport :=
  ((namedEmitter "y").writePrepared
      (FilePath.join ⟨"x/out"⟩ path)
      ⟨plainClass unit, Summary.blank⟩).map
    (fun outcome =>
      ⟨unit, .classifier, some (FilePath.join ⟨"x/out"⟩ path),
        outcome⟩)

theorem exists_step_named
    (name : String)
    {unit : String}
    (hIds : (plainClass unit).ensureUniqueSections = .ok ())
    (path : FilePath) :
    ∃ next,
      (namedEmitter name).sourceChain (plainClass unit) path
            unit .classifier =
          Chain.step
            (.read ((namedEmitter name).source path)) next ∧
        (∀ fault, ∃ report : UnitReport,
          next (.error fault) = .done report ∧
            ¬ report.IsSuccess) ∧
          next (.ok none) = writeClass unit path := by
  rcases (namedEmitter name).exists_step_sourceChain hIds path
      unit .classifier with
    ⟨next, hStep, hFails, hWrites⟩
  refine ⟨next, hStep, fun fault => ⟨_, hFails fault, ?_⟩, ?_⟩
  · simp [UnitReport.IsSuccess, UnitReport.summary?]
  · rw [hWrites, writePrepared_named, destination_named]
    rfl

theorem jobs_named (name : String) :
    ∃ nextA nextB,
      (namedEmitter name).jobs namedUnits =
          [.single (.step
            (.read ((namedEmitter name).source ⟨"A.java"⟩))
            nextA),
          .single (.step
            (.read ((namedEmitter name).source ⟨"B.java"⟩))
            nextB)] ∧
        nextA (.ok none) = writeClass "A" ⟨"A.java"⟩ ∧
        nextB (.ok none) = writeClass "B" ⟨"B.java"⟩ ∧
        ∀ fault, ∃ report : UnitReport,
          nextB (.error fault) = .done report ∧
            ¬ report.IsSuccess := by
  have hFiles :
      (namedEmitter name).filePath ⟨["A"]⟩ = ⟨"A.java"⟩ ∧
        (namedEmitter name).filePath ⟨["B"]⟩ =
          ⟨"B.java"⟩ := by
    show QualifiedName.filePath "java" ⟨["A"]⟩ = _ ∧
      QualifiedName.filePath "java" ⟨["B"]⟩ = _
    decide +kernel
  have hIds :
      (plainClass "A").ensureUniqueSections = .ok () ∧
        (plainClass "B").ensureUniqueSections = .ok () := by
    decide +kernel
  rcases exists_step_named name hIds.1 ⟨"A.java"⟩ with
    ⟨nextA, hA, _, hWriteA⟩
  rcases exists_step_named name hIds.2 ⟨"B.java"⟩ with
    ⟨nextB, hB, hFailB, hWriteB⟩
  refine ⟨nextA, nextB, ?_, hWriteA, hWriteB, hFailB⟩
  rw [← hA, ← hB, ← hFiles.1, ← hFiles.2]
  rfl

theorem not_isAbsolute_named :
    ¬ FilePath.IsAbsolute ⟨"A.java"⟩ ∧
      ¬ FilePath.IsAbsolute ⟨"B.java"⟩ := by
  decide +kernel

/- Neither of the classes finds a file that is there already. -/
theorem readIfExists_empty (hName : IsLongName name) :
    FileTree.empty.readIfExists
          ((namedEmitter name).source ⟨"A.java"⟩) =
        .ok none ∧
      FileTree.empty.readIfExists
          ((namedEmitter name).source ⟨"B.java"⟩) =
        .ok none :=
  ⟨(readIfExists_namedSource hName not_isAbsolute_named.1
      (by decide +kernel) (by decide) FileTree.empty).1 rfl,
    (readIfExists_namedSource hName not_isAbsolute_named.2
      (by decide +kernel) (by decide) FileTree.empty).1 rfl⟩

/- Both classes can read before one of them writes. -/
theorem steps_reads_named (hName : IsLongName name) :
    Relation.ReflTransGen Job.Step
      ((namedEmitter name).jobs namedUnits, FileTree.empty)
      ([.single (writeClass "A" ⟨"A.java"⟩),
        .single (writeClass "B" ⟨"B.java"⟩)],
        FileTree.empty) := by
  rcases jobs_named name with
    ⟨nextA, nextB, hJobs, hWriteA, hWriteB, _⟩
  have hReads := readIfExists_empty hName
  rw [hJobs, ← hWriteA, ← hWriteB]
  refine .head ⟨_, _, .unit, rfl⟩
    (.single ⟨_, _, .later .unit, ?_⟩)
  dsimp only [Action.perform]
  rw [hReads.1, hReads.2]
  rfl

/-
  One after another, the second class cannot be read, because
  the first one has made the directory in front of the name.
-/
theorem exists_failure_named (hName : IsLongName name) :
    ∃ r ∈
      ((namedEmitter name).emitAll namedUnits
        FileTree.empty).1.units,
      ¬ r.IsSuccess := by
  rcases jobs_named name with
    ⟨nextA, nextB, hJobs, hWriteA, _, hFailB⟩
  rcases hFailB .nameTooLong with ⟨report, hDone, hNot⟩
  have hMade :
      ((writeClass "A" ⟨"A.java"⟩).run
          FileTree.empty).2.at? ["x"] = some .directory :=
    rfl
  have hReadB :=
    (readIfExists_namedSource hName not_isAbsolute_named.2
      (by decide +kernel) (by decide) _).2 hMade
  refine ⟨report, ?_, hNot⟩
  unfold emitAll Job.report
  rw [hJobs, Job.runList_cons, Job.run_single,
    Job.runList_cons, Job.run_single, Chain.run_step,
    Chain.run_step]
  dsimp only [Action.perform]
  rw [(readIfExists_empty hName).1, hWriteA, hReadB, hDone]
  exact List.mem_cons_of_mem _ List.mem_cons_self

/- When both classes read first, both are written. -/
theorem exists_steps_of_longName (hName : IsLongName name) :
    ∃ rest v reports,
      Relation.ReflTransGen Job.Step
          ((namedEmitter name).jobs namedUnits,
            FileTree.empty)
          (rest, v) ∧
        Job.outcomes? rest = some reports ∧
          reports ≠
            ((namedEmitter name).emitAll namedUnits
              FileTree.empty).1.units := by
  have hWrites : ∀ r ∈
      (Job.runList
        [.single (writeClass "A" ⟨"A.java"⟩),
          .single (writeClass "B" ⟨"B.java"⟩)]
        FileTree.empty).1,
      r.IsSuccess := by
    decide +kernel
  rcases Job.exists_steps_runList
      [.single (writeClass "A" ⟨"A.java"⟩),
        .single (writeClass "B" ⟨"B.java"⟩)]
      FileTree.empty with
    ⟨done, hDone, hSteps⟩
  refine ⟨done, _, _,
    (steps_reads_named hName).trans hSteps, hDone, ?_⟩
  intro hSame
  rw [hSame] at hWrites
  rcases exists_failure_named hName with ⟨r, hMem, hNot⟩
  exact hNot (hWrites r hMem)

end LongName

/- A name that is one byte too long. -/
def longName : String :=
  String.ofList (List.replicate 256 'a')

theorem isLongName_longName : IsLongName longName := by
  have hOnly : ∀ c ∈ longName.toList, c = 'a' := by
    unfold longName
    rw [String.toList_ofList]
    exact fun c hMem => List.eq_of_mem_replicate hMem
  have hSize : longName.utf8ByteSize = 256 := by
    decide +kernel
  refine ⟨⟨by decide +kernel, ?_, ?_⟩, ?_, ?_, ?_⟩
  · exact fun hDot => absurd (hOnly _ hDot) (by decide)
  · exact fun hSlash => absurd (hOnly _ hSlash) (by decide)
  · rw [hSize]
    decide
  · exact fun hZero => absurd (hOnly _ hZero) (by decide)
  · rw [hSize]
    decide

/-
  Without short names the order of the units matters, though
  all else is as it should be.
-/
theorem siblings_differ_of_long_name :
    (namedEmitter longName).IsRegular ∧
      (namedEmitter longName).HasSeparateRoots ∧
      (∀ name ∈ Fragment.taskNames namedUnits,
        name.IsParsed) ∧
      (Fragment.taskFiles (namedEmitter longName)
        namedUnits).Nodup ∧
      FileTree.empty.IsRooted ∧
      ∃ rest v reports,
        Relation.ReflTransGen Job.Step
            ((namedEmitter longName).jobs namedUnits,
              FileTree.empty)
            (rest, v) ∧
          Job.outcomes? rest = some reports ∧
            reports ≠
              ((namedEmitter longName).emitAll namedUnits
                FileTree.empty).1.units := by
  have hNames :
      ∀ name ∈ Fragment.taskNames namedUnits,
        name.IsParsed := by
    have hAll :
        Fragment.taskNames namedUnits = [⟨["A"]⟩, ⟨["B"]⟩] :=
      rfl
    rw [hAll, List.forall_mem_cons, List.forall_mem_singleton]
    exact ⟨⟨"A", by decide +kernel⟩, ⟨"B", by decide +kernel⟩⟩
  have hFiles :
      (Fragment.taskFiles (namedEmitter longName)
        namedUnits).Nodup := by
    decide +kernel
  exact ⟨isRegular_namedEmitter isLongName_longName.bare,
    hasSeparateRoots_namedEmitter isLongName_longName, hNames,
    hFiles, FileTree.isRooted_empty,
    exists_steps_of_longName isLongName_longName⟩

end Emitter

end Palimpsest
