import Palimpsest.Fragment.Edit
import Palimpsest.Proofs.Fragment.Items
import Palimpsest.Proofs.Text.Parts

/-
  Lines added to the header of a classifier.

  In the inline style the header is rendered line by line, and
  every added line comes last.  A header that is made for the
  first line starts out with an empty text, which is one empty
  line.  A header of another kind takes no lines.

  Main declarations:
    * `Text.lines_append_line`
    * `Fragment.lines_render_simple`
    * `Fragment.importAll`
    * `Fragment.importAll_of_simple`
    * `Fragment.importAll_of_absent`
    * `Fragment.standard_imports_come_last`
-/

namespace Palimpsest

------------------------------------------------------------
-- The Lines Of A Simple Fragment
------------------------------------------------------------

/- Every text has a line. -/
theorem Text.lines_ne_nil (text : String) :
    Text.lines text ≠ [] :=
  Text.splitAt_ne_nil text

/- A line that is added to a text comes last. -/
theorem Text.lines_append_line (text line : String) :
    Text.lines (text ++ "\n" ++ line) =
      Text.lines text ++ Text.lines line := by
  have hText :
      text ++ "\n" ++ line =
        String.ofList
          (text.toList ++ Text.newline :: line.toList) := by
    rw [← String.toList_inj]
    simp [Text.newline]
  rw [hText, Text.lines_append_newline, String.ofList_toList,
    String.ofList_toList]

/- Nothing is indented at depth zero. -/
theorem Writer.indented_zero (unit text : String) :
    Writer.indented unit 0 text = text := by
  unfold Writer.indented
  split
  · rename_i hEmpty
    exact hEmpty.symm
  · have hIndentation : Writer.indentation unit 0 = "" := by
      rw [← String.toList_inj]
      simp [Writer.indentation]
    rw [hIndentation, String.empty_append]

namespace Fragment

/- The lines before the text of a simple fragment, inline. -/
def leadingLines
    (unit : String)
    (i : Info) : List String :=
  ((i.prologueItems 0).flatMap
    (Item.entries .inline unit)).flatMap Text.lines

/-
  Inline, a simple fragment without anything in the sections
  after it ends in the lines of its text.
-/
theorem lines_render_simple
    (unit : String)
    {i : Info}
    (hAfter : ∀ s ∈ i.after, s.contents = [])
    (text : String) :
    Text.lines ((Fragment.simple i text).render unit .inline) =
      leadingLines unit i ++ Text.lines text := by
  have hText :
      ((Text.lines text).map (Item.line 0)).flatMap
          (Item.entries .inline unit) =
        Text.lines text := by
    rw [List.flatMap_map]
    simp [Item.entries, Writer.indented_zero]
  have hEnd :
      (i.afterItems 0 ++ [Item.gap]).flatMap
          (Item.entries .inline unit) = [] := by
    rw [List.flatMap_append, Info.afterItems, List.flatMap_map]
    simpa [Item.entries, List.flatMap_eq_nil_iff] using hAfter
  have hNotNil :
      (i.prologueItems 0).flatMap (Item.entries .inline unit) ++
          Text.lines text ≠ [] := by
    simp [Text.lines_ne_nil]
  have hCut :
      (Text.lines text).flatMap Text.lines = Text.lines text :=
    Text.flatMap_lines_eq_self
      (fun _ hLine => Text.newline_not_mem_of_mem_lines hLine)
  rw [render_eq_unlines, items, List.append_assoc,
    List.flatMap_append, hEnd, List.append_nil,
    List.flatMap_append, hText, Text.lines_unlines hNotNil,
    List.flatMap_append, hCut, leadingLines]

------------------------------------------------------------
-- Calls That Add Lines
------------------------------------------------------------

/- A text after lines have been added to it. -/
def extended
    (text : String)
    (lines : List String) : String :=
  lines.foldl (fun text line => text ++ "\n" ++ line) text

/- Added lines come last, in the order in which they came. -/
theorem lines_extended
    (text : String)
    (lines : List String) :
    Text.lines (extended text lines) =
      Text.lines text ++ lines.flatMap Text.lines := by
  induction lines generalizing text with
  | nil =>
      simp [extended]
  | cons line lines ih =>
      have hStep :
          extended text (line :: lines) =
            extended (text ++ "\n" ++ line) lines :=
        rfl
      rw [hStep, ih, Text.lines_append_line, List.flatMap_cons,
        List.append_assoc]

/-
  Add one line to the header of a classifier, with an id for a
  header that has to be made.  A refused line leaves
  everything as it was.
-/
def importOne
    (call : FragmentId × String)
    (f : Fragment) :
    Option (Except FragmentError Unit) × Fragment :=
  match f.addStandardImport? call.1 call.2 with
  | some (.ok g) => (some (.ok ()), g)
  | some (.error e) => (some (.error e), f)
  | none => (none, f)

/- Add lines one after another. -/
def importAll :
    List (FragmentId × String) → Fragment →
      List (Option (Except FragmentError Unit)) × Fragment
| [], f => ([], f)
| call :: calls, f =>
    match importOne call f with
    | (answer, f) =>
        match importAll calls f with
        | (answers, f) => (answer :: answers, f)

section

variable {i : Info} {m : Option Fragment} {d : String}
variable {ms : List Fragment} {x : Option Section}

/- A simple header takes every line. -/
theorem importAll_of_simple
    (calls : List (FragmentId × String))
    (j : Info)
    (text : String) :
    importAll calls
        (.classifier i (some (.simple j text)) m d ms x) =
      (calls.map (fun _ => some (.ok ())),
        .classifier i
          (some (.simple j (extended text (calls.map Prod.snd))))
          m d ms x) := by
  induction calls generalizing text with
  | nil =>
      rfl
  | cons call calls ih =>
      have hOne :
          importOne call
              (.classifier i (some (.simple j text)) m d ms x) =
            (some (.ok ()),
              .classifier i
                (some (.simple j (text ++ "\n" ++ call.2)))
                m d ms x) :=
        rfl
      simp only [importAll, hOne, ih, List.map_cons]
      rfl

/- An absent header is made with an empty text first. -/
theorem importAll_of_absent
    (call : FragmentId × String)
    (calls : List (FragmentId × String)) :
    importAll (call :: calls)
        (.classifier i none m d ms x) =
      importAll (call :: calls)
        (.classifier i
          (some (create call.1 .simple "header" .other))
          m d ms x) :=
  rfl

/- A header of another kind refuses every line. -/
theorem importAll_of_refused
    {header : Fragment}
    (hKind : header.kind ≠ .simple)
    (calls : List (FragmentId × String)) :
    importAll calls
        (.classifier i (some header) m d ms x) =
      (calls.map (fun _ =>
          some (.error
            (.unsupportedOperation .append header.kind))),
        .classifier i (some header) m d ms x) := by
  have hAppend (line : String) : header.append? line = none := by
    cases header with
    | simple j text => exact absurd rfl hKind
    | _ => rfl
  have hOne (call : FragmentId × String) :
      importOne call
          (.classifier i (some header) m d ms x) =
        (some (.error
            (.unsupportedOperation .append header.kind)),
          .classifier i (some header) m d ms x) := by
    simp [importOne, addStandardImport?, hAppend]
  induction calls with
  | nil =>
      rfl
  | cons call calls ih =>
      simp only [importAll, hOne, ih, List.map_cons]

end

------------------------------------------------------------
-- Standard Imports
------------------------------------------------------------

/-
  The lines that a header is rendered with before lines are
  added to it.  A header that has to be made is rendered with
  one empty line.
-/
def linesBefore
    (unit : String)
    (header : Option Fragment) : List String :=
  match header with
  | some g => Text.lines (g.render unit .inline)
  | none => [""]

/-
  Lines without newlines are added to the header of a
  classifier.  If the header is a simple fragment, with
  nothing in the sections after it, or absent, every line is
  taken and only the header changes.  It is then rendered,
  inline, with the lines before, followed by the added lines
  in order; before a header that was made for them stands one
  empty line.  A header of another kind refuses every line,
  and the classifier stays as it was.
-/
theorem standard_imports_come_last
    (i : Info)
    (header imports : Option Fragment)
    (declaration : String)
    (members : List Fragment)
    (extras : Option Section)
    {calls : List (FragmentId × String)}
    (hCalls : calls ≠ [])
    (hLines : ∀ call ∈ calls, Text.newline ∉ call.2.toList) :
    ((∀ g ∈ header,
        g.kind = .simple ∧
          ∀ s ∈ g.info.after, s.contents = []) →
      ∃ g,
        importAll calls
            (.classifier i header imports declaration members
              extras) =
          (calls.map (fun _ => some (.ok ())),
            .classifier i (some g) imports declaration members
              extras) ∧
          ∀ unit,
            Text.lines (g.render unit .inline) =
              linesBefore unit header ++
                calls.map Prod.snd) ∧
      ∀ g, header = some g → g.kind ≠ .simple →
        importAll calls
            (.classifier i header imports declaration members
              extras) =
          (calls.map (fun _ =>
              some (.error
                (.unsupportedOperation .append g.kind))),
            .classifier i header imports declaration members
              extras) := by
  have hAdded :
      (calls.map Prod.snd).flatMap Text.lines =
        calls.map Prod.snd := by
    apply Text.flatMap_lines_eq_self
    intro line hLine
    rcases List.mem_map.mp hLine with ⟨call, hCall, rfl⟩
    exact hLines call hCall
  have hSimple
      {j : Info}
      (hAfter : ∀ s ∈ j.after, s.contents = [])
      (text unit : String) :
      Text.lines
          ((Fragment.simple j
            (extended text (calls.map Prod.snd))).render unit
              .inline) =
        Text.lines ((Fragment.simple j text).render unit .inline) ++
          calls.map Prod.snd := by
    rw [lines_render_simple unit hAfter,
      lines_render_simple unit hAfter, lines_extended, hAdded,
      List.append_assoc]
  refine ⟨fun hHeader => ?_, ?_⟩
  · cases header with
    | some g =>
        have hTakes := hHeader g rfl
        cases g with
        | simple j text =>
            exact ⟨_, importAll_of_simple calls j text,
              hSimple hTakes.2 text⟩
        | _ =>
            cases hTakes.1
    | none =>
        rcases List.exists_cons_of_ne_nil hCalls with
          ⟨call, others, rfl⟩
        have hNew :
            ∀ s ∈ (Info.new call.1 "header" .other).after,
              s.contents = [] :=
          fun s hs => (List.not_mem_nil hs).elim
        refine ⟨_, (importAll_of_absent call others).trans
          (importAll_of_simple _ _ _), fun unit => ?_⟩
        rw [hSimple hNew, lines_render_simple unit hNew]
        rfl
  · rintro g rfl hKind
    exact importAll_of_refused hKind calls

/- Two lines for a header. -/
def twoImports : List (FragmentId × String) :=
  [(⟨3⟩, "import a.B;"), (⟨4⟩, "import c.D;")]

/- A header with documentation, a text and an empty section. -/
def packageHeader : Fragment :=
  .simple
    { Info.new ⟨1⟩ "header" .other with
      documentation := some "/* Orders */"
      after := [Section.empty ⟨"order.header", by decide⟩] }
    "package shop;"

/- A classifier with a header or without one. -/
def headed (header : Option Fragment) : Fragment :=
  .classifier (Info.new ⟨0⟩ "Order" .classifier) header none
    "class Order" [] none

/-
  Behind a header with a text the lines come last.  Without a
  header an empty line stands before them.  A group takes
  neither.
-/
theorem standard_imports_come_last_order :
    (∃ g,
      (importAll twoImports (headed (some packageHeader))).2 =
          headed (some g) ∧
        Text.lines (g.render "  " .inline) =
          ["/* Orders */", "package shop;", "import a.B;",
            "import c.D;"]) ∧
      (∃ g,
        (importAll twoImports (headed none)).2 =
            headed (some g) ∧
          Text.lines (g.render "  " .inline) =
            ["", "import a.B;", "import c.D;"]) ∧
      importAll twoImports
          (headed (some (create ⟨1⟩ .group "g" .other))) =
        ([some (.error (.unsupportedOperation .append .group)),
            some
              (.error (.unsupportedOperation .append .group))],
          headed (some (create ⟨1⟩ .group "g" .other))) := by
  have hCalls : twoImports ≠ [] := by
    decide
  have hLines :
      ∀ call ∈ twoImports,
        Text.newline ∉ call.2.toList := by
    decide
  have hHeaded (header : Option Fragment) :=
    standard_imports_come_last
      (Info.new ⟨0⟩ "Order" .classifier) header none
      "class Order" [] none hCalls hLines
  refine ⟨?_, ?_, ?_⟩
  · have hHeader :
        ∀ g ∈ some packageHeader,
          g.kind = .simple ∧
            ∀ s ∈ g.info.after, s.contents = [] := by
      intro g hg
      cases hg
      decide
    rcases (hHeaded (some packageHeader)).1 hHeader with
      ⟨g, hRun, hText⟩
    refine ⟨g, congrArg Prod.snd hRun, ?_⟩
    rw [hText]
    decide +kernel
  · rcases (hHeaded none).1 (fun g hg => by cases hg) with
      ⟨g, hRun, hText⟩
    exact ⟨g, congrArg Prod.snd hRun, hText "  "⟩
  · exact (hHeaded (some (create ⟨1⟩ .group "g" .other))).2 _
      rfl (by decide)

end Fragment

end Palimpsest
