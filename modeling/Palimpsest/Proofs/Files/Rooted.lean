import Palimpsest.Proofs.Files.Frame

/-
  File trees in which everything stands in a directory.

  There, a walk along names either passes directories only, or
  it stops at a file, at a name that is too long, or where
  something is missing.  Whatever stands in a directory keeps
  doing so: no operation puts anything elsewhere.

  Main declarations:
    * `FileTree.IsRooted`
    * `FileTree.walk_namesOf`
    * `FileTree.barrierAlong?`
    * `FileTree.IsRooted.walkEnds`
-/

namespace Palimpsest

------------------------------------------------------------
-- Rooted Trees
------------------------------------------------------------

namespace FileTree

variable {t u : FileTree} {place other : Location}
variable {path : FilePath} {text : String}

/- Everything that is there stands in directories. -/
def IsRooted (t : FileTree) : Prop :=
  ∀ (place : Location) (n : Node),
    t.at? place = some n → t.Leads place

/- A place in front of one above the root is one, too. -/
theorem isUpward_of_front
    (hPlace : place.IsUpward)
    (hPrefix : other <+: place) :
    other.IsUpward := by
  rcases hPlace with rfl | hDots
  · unfold Location.top at hPrefix
    rw [List.prefix_cons_iff] at hPrefix
    rcases hPrefix with rfl | ⟨rest, rfl, hRest⟩
    · exact .inr (by simp)
    · rw [List.prefix_nil.mp hRest]
      exact .inl rfl
  · exact .inr (fun step hStep => hDots step
      (hPrefix.subset hStep))

theorem isRooted_empty : empty.IsRooted := by
  intro place n hNode lead hLead _
  have hPlace : place.IsUpward := by
    by_contra hNot
    unfold at? at hNode
    rw [if_neg hNot] at hNode
    cases hNode
  exact empty.at?_of_isUpward
    (isUpward_of_front hPlace hLead)

theorem KeepsDirectories.refl (t : FileTree) :
    t.KeepsDirectories t :=
  fun _ hNode => hNode

theorem KeepsDirectories.trans
    {v : FileTree}
    (hFirst : t.KeepsDirectories u)
    (hSecond : u.KeepsDirectories v) :
    t.KeepsDirectories v :=
  fun place hNode => hSecond place (hFirst place hNode)

theorem KeepsDirectories.leads
    (hKeeps : t.KeepsDirectories u)
    (hLeads : t.Leads place) :
    u.Leads place :=
  fun lead hLead hNe => hKeeps lead (hLeads lead hLead hNe)

/- Putting something where directories lead to. -/
theorem IsRooted.put
    (hRooted : t.IsRooted)
    (hLeads : t.Leads place)
    (hPlace : t.at? place ≠ some .directory)
    (n : Node) :
    (t.put place n).IsRooted := by
  have hKeeps := keepsDirectories_put hPlace n
  intro other m hNode
  apply hKeeps.leads
  rw [at?_put (not_isUpward hPlace)] at hNode
  split at hNode
  · rename_i hEq
    rw [hEq]
    exact hLeads
  · exact hRooted other m hNode

/- Directories lead to where a path leads. -/
theorem leads_of_locateTrimmed
    (hLocate : t.locateTrimmed path = .ok place) :
    t.Leads place := by
  unfold locateTrimmed at hLocate
  rw [locatePieces_eq_ok_iff] at hLocate
  exact (t.leads_start path).walk hLocate.2

theorem IsRooted.makeDir
    (hRooted : t.IsRooted)
    (hMake : t.makeDir path = .ok u) :
    u.IsRooted := by
  unfold FileTree.makeDir at hMake
  cases hLocate : t.locateTrimmed path with
  | error fault =>
      simp [hLocate] at hMake
  | ok place =>
      rw [hLocate] at hMake
      dsimp only at hMake
      cases hNode : t.at? place with
      | some n =>
          simp [hNode] at hMake
      | none =>
          rw [hNode] at hMake
          cases hMake
          have hPlace : t.at? place ≠ some .directory := by
            rw [hNode]
            simp
          exact hRooted.put (leads_of_locateTrimmed hLocate)
            hPlace _

theorem IsRooted.makeDirIfAbsent
    (hRooted : t.IsRooted)
    (path : FilePath) :
    (t.makeDirIfAbsent path).2.IsRooted := by
  unfold FileTree.makeDirIfAbsent
  cases hMake : t.makeDir path with
  | ok made =>
      exact hRooted.makeDir hMake
  | error fault =>
      dsimp only
      split <;> exact hRooted

theorem IsRooted.ensureDirFrom
    {parents : List FilePath}
    (hRooted : t.IsRooted)
    (path : FilePath) :
    (ensureDirFrom path parents t).2.IsRooted := by
  induction parents generalizing path with
  | nil =>
      rw [FileTree.ensureDirFrom]
      split
      · exact hRooted
      · exact hRooted.makeDirIfAbsent path
  | cons parent rest ih =>
      have hAbove := ih parent
      rw [FileTree.ensureDirFrom]
      split
      · exact hRooted
      · split
        · split
          · rename_i hEnsure
            rw [hEnsure] at hAbove
            exact hAbove
          · rename_i hEnsure
            rw [hEnsure] at hAbove
            exact hAbove.makeDirIfAbsent path
        · exact hRooted.makeDirIfAbsent path

theorem IsRooted.ensureDir
    (hRooted : t.IsRooted)
    (path : FilePath) :
    (t.ensureDir path).2.IsRooted :=
  hRooted.ensureDirFrom path

theorem IsRooted.write
    (hRooted : t.IsRooted)
    (path : FilePath)
    (text : String) :
    (t.write path text).2.IsRooted := by
  cases hWrite : t.write path text with
  | mk answer u =>
      cases answer with
      | error fault =>
          rw [eq_of_write_eq_error hWrite]
          exact hRooted
      | ok _ =>
          rcases write_eq_ok_iff.mp hWrite with
            ⟨place, hLocate, _, hNode, rfl⟩
          exact hRooted.put (leads_of_locateTrimmed hLocate)
            hNode _

theorem IsRooted.create
    (hRooted : t.IsRooted)
    (path : FilePath)
    (text : String) :
    (t.create path text).2.IsRooted := by
  rcases create_cases t path text with
    hSame | ⟨place, hLocate, hNone, hCreate⟩
  · rw [hSame]
    exact hRooted
  · have hPlace : t.at? place ≠ some .directory := by
      rw [hNone]
      simp
    rw [hCreate]
    exact hRooted.put (leads_of_locateTrimmed hLocate)
      hPlace _

/- Nothing is below a place where nothing is. -/
theorem IsRooted.at?_append_of_none
    (hRooted : t.IsRooted)
    (hPlace : t.at? place = none)
    (names : List String) :
    t.at? (place ++ names) = none := by
  cases hNode : t.at? (place ++ names) with
  | none =>
      rfl
  | some n =>
      exfalso
      by_cases hNames : names = []
      · rw [hNames, List.append_nil, hPlace] at hNode
        cases hNode
      · have hLead := hRooted _ n hNode place
          (List.prefix_append place names) (by simpa using hNames)
        rw [hPlace] at hLead
        cases hLead

------------------------------------------------------------
-- Walks Along Names
------------------------------------------------------------

/- Idle pieces in front of a name make no difference. -/
theorem walk_namesOf
    {pieces : List String}
    (hLast : ∀ last ∈ pieces.getLast?,
      ¬ FilePath.IsIdle last)
    (t : FileTree)
    (place : Location) :
    t.walk place pieces =
      t.walk place (FilePath.namesOf pieces) := by
  induction pieces generalizing place with
  | nil =>
      rfl
  | cons piece rest ih =>
      by_cases hPiece : FilePath.IsIdle piece
      · have hRest : rest ≠ [] := by
          intro hNil
          subst hNil
          exact hLast piece rfl hPiece
        rw [List.getLast?_cons_of_ne_nil hRest] at hLast
        have hSize : ¬ maxNameSize < piece.utf8ByteSize := by
          rcases hPiece with rfl | rfl <;> decide
        rw [FilePath.namesOf_cons_of_idle hPiece,
          ← ih hLast place, walk,
          Location.advance_of_idle hPiece, if_neg hSize]
        cases rest with
        | nil =>
            exact absurd rfl hRest
        | cons second more =>
            rw [walk]
            cases t.at? place with
            | none =>
                rfl
            | some n =>
                cases n <;> rfl
      · have hRest : ∀ last ∈ rest.getLast?,
            ¬ FilePath.IsIdle last := by
          intro last hIn
          apply hLast last
          rw [List.getLast?_cons, hIn]
          rfl
        rw [FilePath.namesOf_cons_of_not_idle hPiece, walk,
          walk]
        simp only [ih hRest]

/- All of the texts are names, so that each is a step down. -/
def AreNames (names : List String) : Prop :=
  ∀ name ∈ names, ¬ FilePath.IsIdle name ∧ name ≠ ".."

theorem areNames_of_isForward
    (hForward : path.IsForward) :
    AreNames path.names := by
  intro name hName
  unfold FilePath.names FilePath.namesOf at hName
  rw [List.mem_filter] at hName
  refine ⟨by simpa using hName.2, ?_⟩
  rintro rfl
  exact hForward hName.1

theorem AreNames.advance
    {name : String}
    {rest : List String}
    (hNames : AreNames (name :: rest))
    (place : Location) :
    place.advance name = place ++ [name] :=
  Location.advance_of_name
    (hNames name List.mem_cons_self).1
    (hNames name List.mem_cons_self).2 place

theorem AreNames.tail
    {name : String}
    {rest : List String}
    (hNames : AreNames (name :: rest)) :
    AreNames rest :=
  fun other hOther =>
    hNames other (List.mem_cons_of_mem _ hOther)

/- A walk that goes on stops where something is missing. -/
theorem walk_of_none
    (hPlace : t.at? place = none)
    {names : List String}
    (hNames : names ≠ []) :
    t.walk place names = .error .notFound := by
  cases names with
  | nil =>
      exact absurd rfl hNames
  | cons name rest =>
      rw [walk, hPlace]

/- A walk that goes on stops at a file. -/
theorem walk_of_file
    {content : ByteArray}
    (hPlace : t.at? place = some (.file content))
    {names : List String}
    (hNames : names ≠ []) :
    t.walk place names = .error .notDirectory := by
  cases names with
  | nil =>
      exact absurd rfl hNames
  | cons name rest =>
      rw [walk, hPlace]

------------------------------------------------------------
-- Barriers
------------------------------------------------------------

/- There is a file at the place. -/
def HasFile (t : FileTree) (place : Location) : Prop :=
  ∃ content, t.at? place = some (.file content)

theorem not_hasFile_of_at?
    {n : Option Node}
    (hNode : t.at? place = n)
    (hFree : ∀ content, n ≠ some (.file content)) :
    ¬ t.HasFile place := by
  rintro ⟨content, hFile⟩
  exact hFree content (hNode.symm.trans hFile)

/-
  Why there can be no directory with a name: the name is too
  long, or a file has it.
-/
def barrier?
    (t : FileTree)
    (place : Location)
    (name : String) : Option FileFault :=
  if maxNameSize < name.utf8ByteSize then
    some .nameTooLong
  else
    match t.at? (place ++ [name]) with
    | some (.file _) => some .notDirectory
    | _ => none

/- The first barrier along names. -/
def barrierAlong?
    (t : FileTree) : Location → List String → Option FileFault
| _, [] => none
| place, name :: rest =>
    match t.barrier? place name with
    | some fault => some fault
    | none => t.barrierAlong? (place ++ [name]) rest

variable {name last : String} {names front : List String}
variable {fault : FileFault}

theorem barrierAlong?_concat :
    t.barrierAlong? place (front ++ [last]) =
      match t.barrierAlong? place front with
      | some fault => some fault
      | none => t.barrier? (place ++ front) last := by
  induction front generalizing place with
  | nil =>
      rw [List.nil_append, barrierAlong?, barrierAlong?,
        List.append_nil]
      cases t.barrier? place last <;> rfl
  | cons name rest ih =>
      rw [List.cons_append, barrierAlong?, barrierAlong?, ih,
        List.append_assoc, List.singleton_append]
      cases t.barrier? place name <;> rfl

theorem barrierAlong?_of_prefix
    (hNames : t.barrierAlong? place names = none)
    (hFront : front <+: names) :
    t.barrierAlong? place front = none := by
  rcases hFront with ⟨rest, rfl⟩
  induction front generalizing place with
  | nil =>
      rfl
  | cons name front ih =>
      rw [List.cons_append, barrierAlong?] at hNames
      rw [barrierAlong?]
      cases hFirst : t.barrier? place name with
      | some fault =>
          simp [hFirst] at hNames
      | none =>
          rw [hFirst] at hNames
          exact ih hNames

theorem barrier?_of_long
    (hName : maxNameSize < name.utf8ByteSize)
    (t : FileTree)
    (place : Location) :
    t.barrier? place name = some .nameTooLong :=
  if_pos hName

theorem barrier?_of_file
    {content : ByteArray}
    (hName : ¬ maxNameSize < name.utf8ByteSize)
    (hNode : t.at? (place ++ [name]) = some (.file content)) :
    t.barrier? place name = some .notDirectory := by
  unfold barrier?
  rw [if_neg hName, hNode]

theorem barrier?_of_not_file
    (hName : ¬ maxNameSize < name.utf8ByteSize)
    (hNode : ¬ t.HasFile (place ++ [name])) :
    t.barrier? place name = none := by
  unfold barrier?
  rw [if_neg hName]
  cases hHere : t.at? (place ++ [name]) with
  | none =>
      rfl
  | some n =>
      cases n with
      | directory =>
          rfl
      | file content =>
          exact absurd ⟨content, hHere⟩ hNode

theorem barrier?_eq_none_iff :
    t.barrier? place name = none ↔
      ¬ maxNameSize < name.utf8ByteSize ∧
        ¬ t.HasFile (place ++ [name]) := by
  constructor
  · intro hNone
    constructor
    · intro hName
      rw [barrier?_of_long hName] at hNone
      cases hNone
    · rintro ⟨content, hNode⟩
      unfold barrier? at hNone
      split at hNone
      · cases hNone
      · rw [hNode] at hNone
        cases hNone
  · rintro ⟨hName, hNode⟩
    exact barrier?_of_not_file hName hNode

/- Barriers depend on the files alone. -/
theorem barrier?_congr
    (hFile :
      t.HasFile (place ++ [name]) ↔
        u.HasFile (place ++ [name])) :
    t.barrier? place name = u.barrier? place name := by
  by_cases hName : maxNameSize < name.utf8ByteSize
  · rw [barrier?_of_long hName, barrier?_of_long hName]
  · by_cases hHere : t.HasFile (place ++ [name])
    · rcases hHere with ⟨content, hNode⟩
      rcases hFile.mp ⟨content, hNode⟩ with ⟨other, hOther⟩
      rw [barrier?_of_file hName hNode,
        barrier?_of_file hName hOther]
    · have hThere := fun h => hHere (hFile.mpr h)
      rw [barrier?_of_not_file hName hHere,
        barrier?_of_not_file hName hThere]

theorem barrierAlong?_congr
    (hFiles : ∀ front,
      front <+: names → front ≠ [] →
        (t.HasFile (place ++ front) ↔
          u.HasFile (place ++ front))) :
    t.barrierAlong? place names =
      u.barrierAlong? place names := by
  induction names generalizing place with
  | nil =>
      rfl
  | cons name rest ih =>
      have hFirst := hFiles [name]
        (List.cons_prefix_cons.mpr ⟨rfl, List.nil_prefix⟩)
        (by simp)
      have hRest :
          t.barrierAlong? (place ++ [name]) rest =
            u.barrierAlong? (place ++ [name]) rest := by
        apply ih
        intro front hFront _
        rw [List.append_assoc, List.singleton_append]
        exact hFiles (name :: front)
          (List.cons_prefix_cons.mpr ⟨rfl, hFront⟩) (by simp)
      rw [barrierAlong?, barrierAlong?,
        barrier?_congr hFirst, hRest]

/- Where nothing is, only long names are barriers. -/
theorem IsRooted.barrierAlong?_of_none
    (hRooted : t.IsRooted)
    (hPlace : t.at? place = none)
    (hBarrier : t.barrierAlong? place names = some fault) :
    fault = .nameTooLong := by
  induction names generalizing place with
  | nil =>
      cases hBarrier
  | cons name rest ih =>
      have hNext := hRooted.at?_append_of_none hPlace [name]
      rw [barrierAlong?] at hBarrier
      by_cases hName : maxNameSize < name.utf8ByteSize
      · rw [barrier?_of_long hName] at hBarrier
        cases hBarrier
        rfl
      · have hFree : ¬ t.HasFile (place ++ [name]) := by
          rintro ⟨content, hNode⟩
          rw [hNext] at hNode
          cases hNode
        rw [barrier?_of_not_file hName hFree] at hBarrier
        exact ih hNext hBarrier

/- Barriers are long names and files. -/
theorem barrierAlong?_cases
    (hBarrier : t.barrierAlong? place names = some fault) :
    fault = .nameTooLong ∨ fault = .notDirectory := by
  induction names generalizing place with
  | nil =>
      cases hBarrier
  | cons name rest ih =>
      rw [barrierAlong?] at hBarrier
      cases hFirst : t.barrier? place name with
      | none =>
          rw [hFirst] at hBarrier
          exact ih hBarrier
      | some other =>
          rw [hFirst] at hBarrier
          cases hBarrier
          unfold barrier? at hFirst
          split at hFirst
          · cases hFirst
            exact .inl rfl
          · split at hFirst
            · cases hFirst
              exact .inr rfl
            · cases hFirst

------------------------------------------------------------
-- Where A Walk Stops
------------------------------------------------------------

/- All places along the names are directories. -/
def Passes
    (t : FileTree)
    (place : Location)
    (names : List String) : Prop :=
  ∀ front,
    front <+: names →
      t.at? (place ++ front) = some .directory

theorem passes_cons
    (hHere : t.at? place = some .directory)
    (hRest : t.Passes (place ++ [name]) names) :
    t.Passes place (name :: names) := by
  intro front hFront
  rcases List.prefix_cons_iff.mp hFront with
    rfl | ⟨rest, rfl, hPrefix⟩
  · rw [List.append_nil]
    exact hHere
  · have hNext := hRest rest hPrefix
    rw [List.append_assoc] at hNext
    exact hNext

/-
  How a walk along names to a last one ends.  All names before
  the last are directories, and the last one is found unless
  it is too long; or something is missing, and there is no
  barrier in front of the last name, or a name that is too
  long; or a barrier is met behind directories.
-/
inductive WalkEnds
    (t : FileTree)
    (place : Location)
    (front : List String)
    (last : String) : Except FileFault Location → Prop
| arrived
    (hPasses : t.Passes place front)
    (hClear : t.barrierAlong? place front = none) :
    WalkEnds t place front last
      (if maxNameSize < last.utf8ByteSize then
        .error .nameTooLong
      else
        .ok (place ++ front ++ [last]))
| missing
    (hNone : t.at? (place ++ front) = none)
    (hBarrier : ∀ fault ∈ t.barrierAlong? place front,
      fault = .nameTooLong) :
    WalkEnds t place front last (.error .notFound)
| stopped
    {fault : FileFault}
    (hBarrier : t.barrierAlong? place front = some fault)
    (hPasses : ∀ lead,
      lead <+: front → t.barrierAlong? place lead = none →
        t.at? (place ++ lead) = some .directory) :
    WalkEnds t place front last (.error fault)

/- One directory more at the front of a walk. -/
theorem WalkEnds.cons
    {result : Except FileFault Location}
    (hEnds : WalkEnds t (place ++ [name]) front last result)
    (hHere : t.at? place = some .directory)
    (hAlong :
      t.barrierAlong? place (name :: front) =
        t.barrierAlong? (place ++ [name]) front) :
    WalkEnds t place (name :: front) last result := by
  have hPlace (rest : List String) :
      place ++ [name] ++ rest = place ++ name :: rest := by
    simp
  cases hEnds with
  | arrived hPasses hClear =>
      rw [hPlace]
      exact .arrived (passes_cons hHere hPasses)
        (hAlong.trans hClear)
  | missing hNone hBarrier =>
      rw [hPlace] at hNone
      rw [← hAlong] at hBarrier
      exact .missing hNone hBarrier
  | stopped hBarrier hPasses =>
      refine .stopped (hAlong.trans hBarrier) ?_
      intro lead hLead hClear
      rcases List.prefix_cons_iff.mp hLead with
        rfl | ⟨others, rfl, hPrefix⟩
      · rw [List.append_nil]
        exact hHere
      · rw [barrierAlong?] at hClear
        cases hFirst : t.barrier? place name with
        | some fault =>
            simp [hFirst] at hClear
        | none =>
            rw [hFirst] at hClear
            rw [← hPlace]
            exact hPasses others hPrefix hClear

/- The first name is a barrier. -/
theorem walkEnds_of_barrier
    {fault : FileFault}
    (hHere : t.at? place = some .directory)
    (hFirst : t.barrier? place name = some fault) :
    WalkEnds t place (name :: front) last (.error fault) := by
  have hBarrier :
      t.barrierAlong? place (name :: front) = some fault := by
    rw [barrierAlong?, hFirst]
  refine .stopped hBarrier ?_
  intro lead hLead hClear
  rcases List.prefix_cons_iff.mp hLead with
    rfl | ⟨others, rfl, _⟩
  · rw [List.append_nil]
    exact hHere
  · rw [barrierAlong?, hFirst] at hClear
    cases hClear

/- A walk ends in one of these ways. -/
theorem IsRooted.walkEnds
    (hRooted : t.IsRooted)
    (hHere : t.at? place = some .directory)
    (hNames : AreNames (front ++ [last])) :
    WalkEnds t place front last
      (t.walk place (front ++ [last])) := by
  induction front generalizing place with
  | nil =>
      have hEnds := @WalkEnds.arrived t place [] last
        (by
          intro lead hLead
          rw [List.prefix_nil.mp hLead, List.append_nil]
          exact hHere)
        rfl
      rw [List.nil_append, walk, hHere]
      rw [List.append_nil] at hEnds
      rw [hNames.advance]
      exact hEnds
  | cons name rest ih =>
      have hAlong :
          t.barrierAlong? place (name :: rest) =
            match t.barrier? place name with
            | some fault => some fault
            | none => t.barrierAlong? (place ++ [name]) rest :=
        by rw [barrierAlong?]
      rw [List.cons_append] at hNames ⊢
      rw [walk, hHere, hNames.advance]
      dsimp only
      by_cases hName : maxNameSize < name.utf8ByteSize
      · rw [if_pos hName]
        exact walkEnds_of_barrier hHere
          (barrier?_of_long hName t place)
      · rw [if_neg hName]
        cases hNode : t.at? (place ++ [name]) with
        | none =>
            rw [barrier?_of_not_file hName
              (not_hasFile_of_at? hNode (by simp))] at hAlong
            rw [walk_of_none hNode (by simp)]
            refine .missing ?_ ?_
            · have hBelow :=
                hRooted.at?_append_of_none hNode rest
              rw [List.append_assoc] at hBelow
              exact hBelow
            · intro fault hFault
              rw [hAlong] at hFault
              exact hRooted.barrierAlong?_of_none hNode hFault
        | some n =>
            cases n with
            | file content =>
                rw [walk_of_file hNode (by simp)]
                exact walkEnds_of_barrier hHere
                  (barrier?_of_file hName hNode)
            | directory =>
                have hEnds := ih hNode hNames.tail
                rw [barrier?_of_not_file hName
                  (not_hasFile_of_at? hNode (by simp))]
                  at hAlong
                exact hEnds.cons hHere hAlong

end FileTree

end Palimpsest
