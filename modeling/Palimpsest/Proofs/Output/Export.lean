import Palimpsest.Proofs.Files.Frame
import Palimpsest.Proofs.Fragment.Inline
import Palimpsest.Proofs.Output.Contract

/-
  What an export leaves alone.

  Whatever happens in a pass that exports, whichever units
  fail and in whatever order they take their turns, only the
  inside of the destination changes, and directories that lead
  there may appear.  When the fragments hold no markers of
  their own, no file of a class or package that was written
  holds one.

  Main declarations:
    * `FileTree.StaysInside`
    * `Task.Takes.staysInside`
    * `FileTree.HoldsInner`
    * `Task.exportContract`
    * `Emitter.export_isolated`
-/

namespace Palimpsest

------------------------------------------------------------
-- Staying Inside A Directory
------------------------------------------------------------

namespace FileTree

variable {t u v : FileTree} {root : Location}
variable {path : FilePath}

/-
  All changes are inside a directory, or directories that lead
  to it at places where nothing was.
-/
def StaysInside
    (root : Location)
    (t u : FileTree) : Prop :=
  ∀ place : Location,
    u.at? place = t.at? place ∨
      (root <+: place ∧ place ≠ root) ∨
      (place <+: root ∧ t.at? place = none ∧
        u.at? place = some .directory)

theorem StaysInside.refl
    (root : Location)
    (t : FileTree) :
    StaysInside root t t :=
  fun _ => .inl rfl

theorem StaysInside.trans
    (hFirst : StaysInside root t u)
    (hSecond : StaysInside root u v) :
    StaysInside root t v := by
  intro place
  rcases hSecond place with
    hSame | hInside | ⟨hLead, hNone, hNew⟩
  · rw [hSame]
    exact hFirst place
  · exact .inr (.inl hInside)
  · rcases hFirst place with hSame | hInside | ⟨_, _, hOld⟩
    · rw [hSame] at hNone
      exact .inr (.inr ⟨hLead, hNone, hNew⟩)
    · exact .inr (.inl hInside)
    · rw [hOld] at hNone
      cases hNone

/- A directory apart from the root is left as it was. -/
theorem StaysInside.at?_of_apart
    {base place : Location}
    (hStays : StaysInside root t u)
    (hAbove : ¬ base <+: root)
    (hBelow : ¬ root <+: base)
    (hPlace : base <+: place) :
    u.at? place = t.at? place := by
  rcases hStays place with hSame | ⟨hInside, _⟩ | ⟨hLead, _⟩
  · exact hSame
  · rcases List.prefix_or_prefix_of_prefix hPlace hInside with
      hBase | hRoot
    · exact absurd hBase hAbove
    · exact absurd hRoot hBelow
  · exact absurd (hPlace.trans hLead) hAbove

/- Making a directory inside the root stays inside. -/
theorem staysInside_ensureDir
    (hForward : path.IsForward)
    (hPath : root <+: path.place)
    (t : FileTree) :
    StaysInside root t (t.ensureDir path).2 := by
  intro place
  rcases addsDirectories_ensureDir_place hForward t place with
    hSame | ⟨hLead, hNone, hNew⟩
  · exact .inl hSame
  · by_cases hAbove : place <+: root
    · exact .inr (.inr ⟨hAbove, hNone, hNew⟩)
    · have hBelow :=
        (List.prefix_or_prefix_of_prefix hLead hPath).resolve_left
          hAbove
      refine .inr (.inl ⟨hBelow, ?_⟩)
      intro hEq
      exact hAbove (hEq ▸ List.prefix_rfl)

/- What changes one place inside the root stays inside. -/
theorem staysInside_of_ne
    (hPath : root <+: path.place)
    (hNe : path.place ≠ root)
    (hSame : ∀ place,
      place ≠ path.place → u.at? place = t.at? place) :
    StaysInside root t u := by
  intro place
  by_cases hPlace : place = path.place
  · subst hPlace
    exact .inr (.inl ⟨hPath, hNe⟩)
  · exact .inl (hSame place hPlace)

end FileTree

namespace Task

variable {e : Emitter} {task : Task} {relative : FilePath}

/- What changes a unit file only stays inside the root. -/
theorem staysInside_of_unitFile
    {t u : FileTree}
    (hRegular : e.IsRegular)
    (hPath : relative.IsUnitFile)
    (hSame : ∀ place,
      place ≠ (e.destination relative).place →
        u.at? place = t.at? place) :
    FileTree.StaysInside e.outputRoot.place t u := by
  rcases hPath.join hRegular.root with
    ⟨_, directories, file, _, _, _, _, hPlace⟩
  refine FileTree.staysInside_of_ne ?_ ?_ hSame
  · rw [show (e.destination relative).place = _ from hPlace,
      List.append_assoc]
    exact List.prefix_append _ _
  · rw [show (e.destination relative).place = _ from hPlace,
      List.append_assoc]
    simp

/- Every action of a task stays inside the output root. -/
theorem Takes.staysInside
    (hRegular : e.IsRegular)
    (hNames : task.HasParsedName)
    {a : Action}
    (hTakes : task.Takes e a)
    (t : FileTree) :
    FileTree.StaysInside e.outputRoot.place t
      (a.perform t).2 := by
  cases hTakes with
  | @directory module name =>
      have hPath := Emitter.isUnitDirectory_dirPath
        (hNames name rfl)
      rcases hPath.join hRegular.root with
        ⟨hForward, hPlace⟩
      apply FileTree.staysInside_ensureDir hForward
      rw [hPlace]
      exact List.prefix_append _ _
  | @parent _ relative parent hFile hParent _ =>
      have hPath := isUnitFile_of_file? hRegular hNames hFile
      rcases hPath.parent hRegular.root hParent with
        ⟨hForward, directories, _, hPlace⟩
      apply FileTree.staysInside_ensureDir hForward
      rw [hPlace]
      exact List.prefix_append _ _
  | read _ =>
      exact FileTree.StaysInside.refl _ t
  | @write unit relative previous p hFile _ =>
      have hPath : relative.IsUnitFile :=
        isUnitFile_of_file? hRegular hNames hFile
      apply staysInside_of_unitFile hRegular hPath
      intro place hPlace
      exact FileTree.at?_write_of_ne
        (hPath.join hRegular.root).1 hPlace t
  | @create i s relative hFile =>
      have hPath : relative.IsUnitFile :=
        isUnitFile_of_file? hRegular hNames hFile
      apply staysInside_of_unitFile hRegular hPath
      intro place hPlace
      exact FileTree.at?_create_of_ne
        (hPath.join hRegular.root).1 hPlace t

end Task

------------------------------------------------------------
-- Files Without Markers
------------------------------------------------------------

namespace FileTree

variable {t u v : FileTree} {path other : FilePath}
variable {text : String}

/- The path leads to a text without marker lines. -/
def HoldsInner
    (t : FileTree)
    (path : FilePath) : Prop :=
  ∃ text,
    t.Holds path text ∧
      ∀ line ∈ Text.lines text, Marker.IsInner line

/- Files without marker lines stay without marker lines. -/
def KeepsInner (t u : FileTree) : Prop :=
  ∀ path, t.HoldsInner path → u.HoldsInner path

theorem KeepsInner.refl (t : FileTree) : KeepsInner t t :=
  fun _ hHolds => hHolds

theorem KeepsInner.trans
    (hFirst : KeepsInner t u)
    (hSecond : KeepsInner u v) :
    KeepsInner t v :=
  fun path hHolds => hSecond path (hFirst path hHolds)

/- What keeps directories and texts keeps what a path holds. -/
theorem Holds.of_keeps
    (hHolds : t.Holds path text)
    (hDirectories : t.KeepsDirectories u)
    (hFiles : ∀ place content,
      t.at? place = some (.file content) →
        u.at? place = some (.file content)) :
    u.Holds path text := by
  rcases hHolds with ⟨place, hLocate, hSlash, hNode⟩
  exact ⟨place, hDirectories.locatePieces hLocate, hSlash,
    hFiles place _ hNode⟩

theorem keepsInner_of_addsDirectories
    {allowed : Location → Prop}
    (hAdds : AddsDirectories allowed t u) :
    KeepsInner t u := by
  rintro path ⟨text, hHolds, hInner⟩
  refine ⟨text, ?_, hInner⟩
  exact hHolds.of_keeps hAdds.keepsDirectories
    (fun place content => (hAdds.keepsFiles place content).mpr)

/- A new file is put where nothing was. -/
theorem keepsInner_create
    (t : FileTree)
    (path : FilePath)
    (text : String) :
    KeepsInner t (t.create path text).2 := by
  rcases create_cases t path text with
    hSame | ⟨place, _, hNone, hCreate⟩
  · rw [hSame]
    exact .refl t
  · have hFree : t.at? place ≠ some .directory := by
      rw [hNone]
      simp
    rw [hCreate]
    rintro other ⟨held, hHolds, hInner⟩
    refine ⟨held, ?_, hInner⟩
    apply hHolds.of_keeps (keepsDirectories_put hFree _)
    intro occupied content hNode
    rw [at?_put (not_isUpward hFree), if_neg]
    · exact hNode
    · intro hEq
      rw [hEq, hNone] at hNode
      cases hNode

/-
  A text without marker lines may be written anywhere, also in
  place of one that is held.
-/
theorem keepsInner_write
    (hText : ∀ line ∈ Text.lines text, Marker.IsInner line)
    (t : FileTree)
    (path : FilePath) :
    KeepsInner t (t.write path text).2 := by
  cases hWrite : t.write path text with
  | mk answer u =>
      cases answer with
      | error fault =>
          rw [eq_of_write_eq_error hWrite]
          exact .refl t
      | ok _ =>
          have hKeeps := keepsDirectories_write hWrite
          rcases write_eq_ok_iff.mp hWrite with
            ⟨place, _, _, hNode, rfl⟩
          rintro other ⟨held, hHolds, hInner⟩
          rcases hHolds with ⟨where', hLocate, hSlash, hHeld⟩
          have hFound := hKeeps.locatePieces hLocate
          by_cases hEq : where' = place
          · refine ⟨text, ⟨where', hFound, hSlash, ?_⟩, hText⟩
            rw [at?_put (not_isUpward hNode), if_pos hEq]
          · refine ⟨held, ⟨where', hFound, hSlash, ?_⟩,
              hInner⟩
            rw [at?_put (not_isUpward hNode), if_neg hEq]
            exact hHeld

end FileTree

/-
  The tree of a unit that exports no markers: it holds none
  itself, and its sections are fresh.
-/
def Fragment.HasNoMarkers (f : Fragment) : Prop :=
  f.HasInnerText ∧ ∀ s ∈ f.sections, s.IsFresh

instance (f : Fragment) : Decidable f.HasNoMarkers := by
  unfold Fragment.HasNoMarkers
  infer_instance

namespace Emitter

variable {e : Emitter} {root : FilePath}

/-
  What is exported of a unit without markers has none,
  whatever its previous text was.
-/
theorem isInner_of_prepare
    {source : FilePath}
    {f : Fragment}
    {previous : Option String}
    {p : Prepared}
    (hExport : e.strategy = .exportTo root)
    (hIndent : IsIndentation e.indent)
    (hTree : f.HasNoMarkers)
    (hPrepare : prepare source f previous = .ok p) :
    ∀ line ∈ Text.lines (e.render p.tree),
      Marker.IsInner line := by
  rcases (prepare_eq_ok_iff.mp hPrepare).exists_recovered with
    ⟨recovered, hRecovered, hGrafted⟩
  unfold render
  rw [hExport, hGrafted]
  apply Fragment.isInner_of_mem_lines_restored hIndent
    hTree.1 _ hRecovered
  intro s hs
  exact (hTree.2 s (f.emitted_subset hs)).isRecoverable

end Emitter

namespace Task

variable {e : Emitter} {task : Task} {root : FilePath}

/- Every action of a task keeps files without markers. -/
theorem Takes.keepsInner
    (hExport : e.strategy = .exportTo root)
    (hIndent : IsIndentation e.indent)
    (hTrees : ∀ unit ∈ task.source?, unit.tree.HasNoMarkers)
    {a : Action}
    (hTakes : task.Takes e a)
    (t : FileTree) :
    FileTree.KeepsInner t (a.perform t).2 := by
  cases hTakes with
  | directory =>
      exact FileTree.keepsInner_of_addsDirectories
        (FileTree.addsDirectories_ensureDir _ t)
  | parent _ _ _ =>
      exact FileTree.keepsInner_of_addsDirectories
        (FileTree.addsDirectories_ensureDir _ t)
  | read _ =>
      exact FileTree.KeepsInner.refl t
  | @write unit relative previous p _ hPrepare =>
      apply FileTree.keepsInner_write
      exact Emitter.isInner_of_prepare hExport hIndent
        (hTrees unit rfl) hPrepare
  | create _ =>
      exact FileTree.keepsInner_create t _ _

/-
  A class or package file that is told of as written has no
  markers, whatever the other units do.
-/
def exportContract
    (e : Emitter)
    (task : Task) : Contract where
  allows := task.Takes e
  relies := FileTree.KeepsInner
  promises := fun r u =>
    r.kind = .classifier ∨ r.kind = .packageFile →
      r.IsSuccess →
        ∃ path,
          r.destination = some path ∧ u.HoldsInner path
  refl := FileTree.KeepsInner.refl
  trans := fun _ _ _ => FileTree.KeepsInner.trans

/- A unit that reads back writes no markers. -/
theorem fulfilled_export_source
    {unit : SourceUnit}
    (hExport : e.strategy = .exportTo root)
    (hIndent : IsIndentation e.indent)
    (hTree : unit.tree.HasNoMarkers)
    (t : FileTree) :
    (unit.chain e).Fulfils
      ((source unit).exportContract e).relies
      ((source unit).exportContract e).promises t := by
  rcases unit.chain_cases e with
    ⟨relative, _, hChain⟩ | ⟨fault, hChain⟩
  · rw [hChain]
    apply Chain.fulfils_map
    apply Emitter.fulfils_roundTrip
    · exact fun fault u _ hSuccess => by cases hSuccess
    · intro _ v w previous p _ _ hPrepare hHolds hRelies _ _
      have hInner := Emitter.isInner_of_prepare hExport
        hIndent hTree hPrepare
      exact ⟨_, rfl, hRelies _ ⟨_, hHolds, hInner⟩⟩
  · rw [hChain]
    exact .done (fun u _ _ hSuccess => by cases hSuccess)

/- Every unit meets its contract. -/
theorem isMetBy_exportContract
    (hExport : e.strategy = .exportTo root)
    (hIndent : IsIndentation e.indent)
    (hTrees : ∀ unit ∈ task.source?, unit.tree.HasNoMarkers)
    (t : FileTree) :
    (task.exportContract e).IsMetBy t (task.chain e) := by
  refine ⟨fun _ => takes_of_can, ?_⟩
  cases task with
  | directory module name =>
      apply Chain.fulfils_map
      apply Chain.fulfils_of_forall
      rintro answer u (hKind | hKind) <;> cases hKind
  | source unit =>
      exact fulfilled_export_source hExport hIndent
        (hTrees unit rfl) t
  | template i s =>
      dsimp only [chain]
      rcases e.templateChain_cases i s with
        ⟨name, _, hChain⟩ | ⟨fault, hChain⟩
      · rw [hChain]
        apply Chain.fulfils_map
        apply Chain.fulfils_of_forall
        rintro answer u (hKind | hKind) <;> cases hKind
      · rw [hChain]
        exact .done (fun u _ _ hSuccess => by cases hSuccess)
  | refused name kind fault =>
      exact .done (fun u _ _ hSuccess => by cases hSuccess)

end Task

------------------------------------------------------------
-- Whole Exports
------------------------------------------------------------

namespace Emitter

variable {e : Emitter} {units : List Fragment}
variable {t u : FileTree} {report : Report}
variable {root : FilePath}

/- A pass changes nothing outside the output root. -/
theorem Passes.staysInside
    (hRun : e.Passes units t report u)
    (hRegular : e.IsRegular)
    (hNames :
      ∀ name ∈ Fragment.taskNames units, name.IsParsed) :
    FileTree.StaysInside e.outputRoot.place t u := by
  apply hRun.keeps
    (FileTree.StaysInside.refl e.outputRoot.place)
    (fun _ _ _ => FileTree.StaysInside.trans)
  intro task hTask a hTakes v
  apply hTakes.staysInside hRegular
  exact fun name hName => hNames name
    (List.mem_filterMap.mpr ⟨task, hTask, hName⟩)

/- In an export without markers all units are bound. -/
theorem areBound_export
    (hExport : e.strategy = .exportTo root)
    (hIndent : IsIndentation e.indent)
    (hTrees : ∀ unit ∈ Fragment.taskSources units,
      unit.tree.HasNoMarkers)
    (t : FileTree) :
    Task.AreBound (Task.exportContract e) e units t := by
  have hTaskTrees : ∀ task ∈ Fragment.tasksList units,
      ∀ unit ∈ task.source?, unit.tree.HasNoMarkers := by
    intro task hTask unit hUnit
    exact hTrees unit
      (List.mem_filterMap.mpr ⟨task, hTask, hUnit⟩)
  constructor
  · unfold Contract.AreTolerant
    rw [List.pairwise_map]
    apply List.pairwise_of_forall_mem_list
    intro task hTask other hOther
    exact ⟨fun a hTakes => hTakes.keepsInner hExport hIndent
        (hTaskTrees other hOther),
      fun a hTakes => hTakes.keepsInner hExport hIndent
        (hTaskTrees task hTask)⟩
  · intro task hTask
    exact Task.isMetBy_exportContract hExport hIndent
      (hTaskTrees task hTask) t

/- Where the files of the example are. -/
def exporter : Emitter :=
  Emitter.new ⟨"src"⟩ "  " (some ⟨"out"⟩)

/- A class with a section, and a class without a full name. -/
def exportedUnits : List Fragment :=
  [.classifier
      { Info.new ⟨0⟩ "A" .classifier with
        qualifiedName := some ⟨["app", "A"]⟩ }
      none none "class A" []
      (some (Section.empty ⟨"inner", by decide⟩)),
    .classifier (Info.new ⟨1⟩ "B" .classifier)
      none none "class B" [] none]

/- A previous file with code in its section. -/
def exportedFiles : FileTree :=
  ((FileTree.empty.put ["src"] .directory).put
    ["src", "app"] .directory).put
      ["src", "app", "A.java"]
      (Node.ofText
        ("// ----------- << inner >>\nint a;\n" ++
          "// ----------- >>"))

end Emitter

end Palimpsest
