import Mathlib.Data.List.DropRight
import Palimpsest.Imports
import Palimpsest.Proofs.Fragment.Header

/-
  What a classifier imports.

  Names are resolved one after another, and every classifier
  starts over with its own package.  The imports are the names
  resolved since then, once each and in the order in which
  they were first seen, without those that are visible anyway.

  Main declarations:
    * `QualifiedName.IsIn`
    * `Imports.IsVisible`
    * `Imports.Call`
    * `Imports.run`
    * `Imports.resolved`
    * `Imports.currentPackage`
    * `Imports.names_run`
    * `Imports.lines_render_block`
    * `Imports.foreign_names_once`
-/

namespace Palimpsest

------------------------------------------------------------
-- Names That Are Visible
------------------------------------------------------------

namespace QualifiedName

/- The name stands right inside another one. -/
def IsIn (name enclosing : QualifiedName) : Prop :=
  enclosing.segments ≠ [] ∧
    ∃ segment, name = enclosing.child segment

/- A name has the parent that it stands in. -/
theorem parent?_eq_some_iff (name enclosing : QualifiedName) :
    name.parent? = some enclosing ↔ name.IsIn enclosing := by
  rcases name with ⟨segments⟩
  rcases enclosing with ⟨front⟩
  unfold parent? IsIn child
  constructor
  · intro hParent
    dsimp only at hParent
    split at hParent
    · cases hParent
    · cases hParent
    · rename_i hNil hOne
      have hFront : segments.dropLast = front :=
        congrArg QualifiedName.segments (Option.some.inj hParent)
      subst hFront
      refine ⟨?_, segments.getLast hNil, ?_⟩
      · intro hEmpty
        rw [← List.dropLast_append_getLast hNil] at hOne
        dsimp only at hEmpty
        rw [hEmpty] at hOne
        exact hOne _ rfl
      · rw [List.dropLast_append_getLast]
  · rintro ⟨hFront, segment, hName⟩
    cases hName
    cases front with
    | nil =>
        exact absurd rfl hFront
    | cons first others =>
        cases others with
        | nil => rfl
        | cons second others =>
            show some (QualifiedName.mk
              ((first :: second :: others) ++
                [segment]).dropLast) = _
            rw [List.dropLast_concat]

end QualifiedName

namespace Imports

/-
  A name is visible without an import if the package that it
  stands in is the current one or is always visible.
-/
def IsVisible
    (package : Option QualifiedName)
    (name : QualifiedName) : Prop :=
  ∃ enclosing, name.IsIn enclosing ∧
    (package = some enclosing ∨
      enclosing.dotted ∈ implicitPackages)

/- Visible names are passed over. -/
theorem isImplicit_iff
    (package : Option QualifiedName)
    (name : QualifiedName) :
    IsImplicit package name ↔ IsVisible package name := by
  unfold IsImplicit IsVisible
  cases hParent : name.parent? with
  | none =>
      constructor
      · exact False.elim
      · rintro ⟨enclosing, hIn, _⟩
        rw [← QualifiedName.parent?_eq_some_iff, hParent] at hIn
        cases hIn
  | some parent =>
      constructor
      · intro hVisible
        exact ⟨parent,
          (QualifiedName.parent?_eq_some_iff _ _).mp hParent,
          hVisible⟩
      · rintro ⟨enclosing, hIn, hVisible⟩
        rw [← QualifiedName.parent?_eq_some_iff, hParent] at hIn
        cases hIn
        exact hVisible

instance
    (package : Option QualifiedName)
    (name : QualifiedName) :
    Decidable (IsVisible package name) :=
  decidable_of_iff _ (isImplicit_iff package name)

------------------------------------------------------------
-- Calls
------------------------------------------------------------

/- Start over in a package, or resolve a name. -/
inductive Call where
| reset (package : Option QualifiedName)
| resolve (name : QualifiedName)
deriving DecidableEq

namespace Call

/- The name that a call resolves. -/
def name? : Call → Option QualifiedName
| .reset _ => none
| .resolve name => some name

/- The package that a call starts over in. -/
def package? : Call → Option (Option QualifiedName)
| .reset package => some package
| .resolve _ => none

/- What is left by a call. -/
def make (imports : Imports) : Call → Imports
| .reset package => imports.reset package
| .resolve name => imports.resolve name

end Call

/- What is left by calls, one after another. -/
def run (calls : List Call) : Imports :=
  calls.foldl Call.make Imports.empty

/- The names that were resolved since the last reset. -/
def resolved (calls : List Call) : List QualifiedName :=
  (calls.rtakeWhile (fun call => call.name?.isSome)).filterMap
    Call.name?

/- The package of the last reset, and none before. -/
def currentPackage
    (calls : List Call) : Option QualifiedName :=
  (calls.filterMap Call.package?).getLast?.join

/- Calls up to the last one. -/
theorem run_concat
    (calls : List Call)
    (call : Call) :
    run (calls ++ [call]) = call.make (run calls) := by
  simp [run, List.foldl_append]

/- A call adds its name to the resolved ones, or drops them. -/
theorem resolved_concat
    (calls : List Call)
    (call : Call) :
    resolved (calls ++ [call]) =
      match call with
      | .reset _ => []
      | .resolve name => resolved calls ++ [name] := by
  cases call with
  | reset package =>
      rw [resolved, List.rtakeWhile_concat_neg _ _ _ (by simp
        [Call.name?])]
      rfl
  | resolve name =>
      rw [resolved, List.rtakeWhile_concat_pos _ _ _ (by simp
        [Call.name?]), List.filterMap_append]
      rfl

/- Only a reset changes the package. -/
theorem currentPackage_concat
    (calls : List Call)
    (call : Call) :
    currentPackage (calls ++ [call]) =
      match call with
      | .reset package => package
      | .resolve _ => currentPackage calls := by
  cases call <;> simp [currentPackage, Call.package?]

------------------------------------------------------------
-- The Imports After Calls
------------------------------------------------------------

/- Something that comes last is kept if it is new. -/
theorem eraseDups_concat
    (names : List QualifiedName)
    (name : QualifiedName) :
    (names ++ [name]).eraseDups =
      if name ∈ names then
        names.eraseDups
      else
        names.eraseDups ++ [name] := by
  rw [List.eraseDups_append]
  by_cases hName : name ∈ names <;>
    simp [List.removeAll, hName, List.eraseDups_cons]

/- The package is the one of the last reset. -/
theorem package_run (calls : List Call) :
    (run calls).package = currentPackage calls := by
  induction calls using List.reverseRecOn with
  | nil =>
      rfl
  | append_singleton calls call ih =>
      rw [run_concat, currentPackage_concat]
      cases call with
      | reset package =>
          rfl
      | resolve name =>
          rw [← ih, Call.make, resolve]
          split <;> rfl

/-
  The imports are the names resolved since the last reset,
  without the visible ones, once each.
-/
theorem names_run (calls : List Call) :
    (run calls).names =
      ((resolved calls).filter (fun name =>
        ¬ IsVisible (currentPackage calls) name)).eraseDups := by
  induction calls using List.reverseRecOn with
  | nil =>
      rfl
  | append_singleton calls call ih =>
      rw [run_concat, resolved_concat, currentPackage_concat]
      cases call with
      | reset package =>
          rfl
      | resolve name =>
          have hNew :
              (run calls).IsNew name ↔
                ¬ IsVisible (currentPackage calls) name ∧
                  name ∉ (run calls).names := by
            rw [IsNew, isImplicit_iff, package_run]
          have hMem :
              name ∈ (run calls).names ↔
                name ∈ (resolved calls).filter (fun name =>
                  ¬ IsVisible (currentPackage calls) name) := by
            rw [ih, List.mem_eraseDups]
          dsimp only
          rw [List.filter_append, Call.make, resolve]
          by_cases hVisible :
              IsVisible (currentPackage calls) name
          · have hOld : ¬ (run calls).IsNew name :=
              fun h => (hNew.mp h).1 hVisible
            rw [if_neg hOld, ih]
            simp [hVisible]
          · have hKept :
                [name].filter (fun name =>
                    ¬ IsVisible (currentPackage calls) name) =
                  [name] := by
              simp [hVisible]
            rw [hKept, eraseDups_concat]
            simp only [← hMem, ← ih]
            by_cases hThere : name ∈ (run calls).names
            · have hOld : ¬ (run calls).IsNew name :=
                fun h => (hNew.mp h).2 hThere
              rw [if_neg hOld, if_pos hThere]
            · have hFresh : (run calls).IsNew name :=
                hNew.mpr ⟨hVisible, hThere⟩
              rw [if_pos hFresh, if_neg hThere]

/- A name is answered with whether the list grew. -/
theorem answer_eq_true_iff
    (imports : Imports)
    (name : QualifiedName) :
    answer imports name = true ↔
      imports.names.length <
        (imports.resolve name).names.length := by
  rw [answer, decide_eq_true_iff, resolve]
  by_cases hNew : imports.IsNew name
  · simp [hNew]
  · simp [hNew]

------------------------------------------------------------
-- Writing The Imports
------------------------------------------------------------

/- The imports are rendered as their text. -/
theorem render_block
    (fresh : FragmentId)
    (imports : Imports)
    (unit : String) :
    (imports.block fresh).render unit .inline =
      imports.text := by
  have hAfter :
      ∀ s ∈ (Info.new fresh "imports" .other).after,
        s.contents = [] :=
    fun s hs => (List.not_mem_nil hs).elim
  have hLines := Fragment.lines_render_simple unit hAfter
    imports.text
  rw [← Text.unlines_lines
    ((imports.block fresh).render unit .inline)]
  refine (congrArg Text.unlines hLines).trans ?_
  exact Text.unlines_lines imports.text

/- The text of the imports has one line for each name. -/
theorem lines_text
    {imports : Imports}
    (hNames : imports.names ≠ [])
    (hLines :
      ∀ name ∈ imports.names,
        Text.newline ∉ (line name).toList) :
    Text.lines imports.text = imports.names.map line := by
  have hCut :
      (imports.names.map line).flatMap Text.lines =
        imports.names.map line := by
    apply Text.flatMap_lines_eq_self
    intro part hPart
    rcases List.mem_map.mp hPart with ⟨name, hName, rfl⟩
    exact hLines name hName
  rw [text, Text.lines_unlines (by simpa using hNames), hCut]

/- Giving a classifier its imports. -/
theorem giveTo?_classifier
    (fresh : FragmentId)
    (imports : Imports)
    (i : Info)
    (header before : Option Fragment)
    (declaration : String)
    (members : List Fragment)
    (extras : Option Section) :
    imports.giveTo? fresh
        (.classifier i header before declaration members
          extras) =
      some (.classifier i header
        (if imports.names = [] then
          before
        else
          some (imports.block fresh))
        declaration members extras) := by
  unfold giveTo?
  rw [if_pos (by rfl)]
  split <;> rfl

/-
  After any calls, the imports are the names resolved since
  the last reset: without those that stand in the current
  package or in one that is always visible, once each, in the
  order in which they were first seen.  Resolving a name
  answers whether this list grew.

  A classifier that is given imports changes in nothing else,
  and without imports it does not change at all.  The imports
  are rendered as the lines for their names, in order, and
  what was there before does not matter.
-/
theorem foreign_names_once (calls : List Call) :
    (run calls).names =
        ((resolved calls).filter (fun name =>
          ¬ IsVisible (currentPackage calls) name)).eraseDups ∧
      (∀ name,
        answer (run calls) name = true ↔
          (run calls).names.length <
            (run (calls ++ [.resolve name])).names.length) ∧
      (∀ fresh i header before declaration members extras,
        (run calls).giveTo? fresh
            (.classifier i header before declaration members
              extras) =
          some (.classifier i header
            (if (run calls).names = [] then
              before
            else
              some ((run calls).block fresh))
            declaration members extras)) ∧
      (∀ fresh unit,
        ((run calls).block fresh).render unit .inline =
            Text.unlines ((run calls).names.map (fun name =>
              "import " ++ name.dotted ++ ";")) ∧
          ((run calls).names ≠ [] →
            (∀ name ∈ (run calls).names,
              Text.newline ∉ name.dotted.toList) →
            Text.lines
                (((run calls).block fresh).render unit
                  .inline) =
              (run calls).names.map (fun name =>
                "import " ++ name.dotted ++ ";"))) ∧
      ∀ later fresh next i header before declaration members
          extras,
        (run later).names ≠ [] →
          ((run calls).giveTo? fresh
              (.classifier i header before declaration members
                extras)).bind
              ((run later).giveTo? next) =
            (run later).giveTo? next
              (.classifier i header before declaration members
                extras) := by
  refine ⟨names_run calls, fun name => ?_,
    fun fresh => giveTo?_classifier fresh (run calls),
    fun fresh unit => ⟨?_, fun hNames hLines => ?_⟩, ?_⟩
  · rw [run_concat]
    exact answer_eq_true_iff (run calls) name
  · exact render_block fresh (run calls) unit
  · rw [render_block]
    refine lines_text hNames (fun name hName hNewline => ?_)
    have hDotted := hLines name hName
    have hAround :
        Text.newline ∉ "import ".toList ∧
          Text.newline ∉ ";".toList := by
      decide
    simp only [line, String.toList_append, List.mem_append]
      at hNewline
    rcases hNewline with (hFirst | hName) | hLast
    · exact hAround.1 hFirst
    · exact hDotted hName
    · exact hAround.2 hLast
  · intro later fresh next i header before declaration members
      extras hNames
    rw [giveTo?_classifier, Option.bind_some,
      giveTo?_classifier, giveTo?_classifier, if_neg hNames,
      if_neg hNames]

/- Calls for two classifiers, of which the second counts. -/
def shopCalls : List Call :=
  [.reset (some ⟨["a"]⟩), .resolve ⟨["b", "B"]⟩,
    .reset (some ⟨["com", "shop"]⟩),
    .resolve ⟨["com", "shop", "Order"]⟩,
    .resolve ⟨["java", "util", "List"]⟩,
    .resolve ⟨["java", "lang", "String"]⟩,
    .resolve ⟨["com", "shop", "tax", "Rate"]⟩,
    .resolve ⟨["java", "util", "List"]⟩, .resolve ⟨["Plain"]⟩]

/-
  The name resolved for the first classifier is gone, and so
  are the repeated name and those in visible packages; names
  in a package inside the current one, or in none, are kept.
-/
theorem foreign_names_once_shop :
    (run shopCalls).names =
        [⟨["java", "util", "List"]⟩,
          ⟨["com", "shop", "tax", "Rate"]⟩, ⟨["Plain"]⟩] ∧
      Text.lines
          (((run shopCalls).block ⟨0⟩).render "  " .inline) =
        ["import java.util.List;",
          "import com.shop.tax.Rate;", "import Plain;"] := by
  have hNames :
      (run shopCalls).names =
        [⟨["java", "util", "List"]⟩,
          ⟨["com", "shop", "tax", "Rate"]⟩, ⟨["Plain"]⟩] := by
    decide +kernel
  rcases foreign_names_once shopCalls with
    ⟨_, _, _, hBlock, _⟩
  refine ⟨hNames, ?_⟩
  rw [(hBlock ⟨0⟩ "  ").2 (by simp [hNames])
    (by rw [hNames]; decide +kernel), hNames]
  decide +kernel

end Imports

end Palimpsest
