import Palimpsest.Text.Quoted
import Palimpsest.Text.Search

/-
  This file defines the ids of sections.

  An id names a section across regenerations.  It is written
  into the begin marker of the section, so it must be one line
  of text that holds more than blanks and does not contain the
  two characters that close a marker.

  Key definitions include:
    * `Palimpsest.SectionId.Valid`
    * `Palimpsest.SectionId`
    * `Palimpsest.InvalidSectionId`
    * `Palimpsest.SectionId.ofString`
    * `Palimpsest.SectionId.ofElement`
-/

namespace Palimpsest

------------------------------------------------------------
-- Model Elements
------------------------------------------------------------

/- The identity of a model element, chosen by the model. -/
structure ElementId where
  text : String
deriving DecidableEq, Repr

------------------------------------------------------------
-- Section Ids
------------------------------------------------------------

namespace SectionId

/- The characters that close a begin marker. -/
def closing : List Char :=
  ['>', '>']

/- A character that ends a line. -/
def IsLineEnd (c : Char) : Prop :=
  c = '\n' ∨ c = '\r'

instance (c : Char) : Decidable (IsLineEnd c) := by
  unfold IsLineEnd
  infer_instance

/- A text that ends no line. -/
def IsOneLine (text : List Char) : Prop :=
  ∀ c ∈ text, ¬ IsLineEnd c

instance (text : List Char) : Decidable (IsOneLine text) :=
  List.decidableBAll _ _

/- The texts that may stand in a begin marker. -/
def Valid (text : String) : Prop :=
  ¬ Text.IsBlank text.toList ∧
    ¬ Text.Occurs closing text.toList ∧
      IsOneLine text.toList

instance (text : String) : Decidable (Valid text) := by
  unfold Valid
  infer_instance

end SectionId

/- The id of a section. -/
structure SectionId where
  text : String
  valid : SectionId.Valid text
deriving DecidableEq

/- A text refused as the id of a section. -/
structure InvalidSectionId where
  text : String
deriving DecidableEq, Repr

/- The message for a refused id. -/
def InvalidSectionId.message
    (error : InvalidSectionId) : String :=
  "invalid preserve section id: " ++ Text.quoted error.text

namespace SectionId

/- Two ids with the same text are equal. -/
@[ext]
theorem ext
    {first second : SectionId}
    (h : first.text = second.text) :
    first = second := by
  cases first
  cases second
  cases h
  rfl

/- The id with the given text. -/
def ofString
    (text : String) :
    Except InvalidSectionId SectionId :=
  if h : Valid text then
    .ok ⟨text, h⟩
  else
    .error ⟨text⟩

/- The id of the section that has a role for an element. -/
def ofElement
    (role : String)
    (element : ElementId) :
    Except InvalidSectionId SectionId :=
  ofString (role ++ "@" ++ element.text)

/- A text is accepted exactly when it is valid. -/
theorem ofString_eq_ok_iff
    {text : String}
    {id : SectionId} :
    ofString text = .ok id ↔ id.text = text := by
  unfold ofString
  split
  · rename_i h
    constructor
    · intro hOk
      cases hOk
      rfl
    · intro hText
      subst hText
      rfl
  · rename_i h
    constructor
    · intro hOk
      cases hOk
    · intro hText
      exact absurd (hText ▸ id.valid) h

/- The text of an id is accepted again. -/
@[simp]
theorem ofString_text (id : SectionId) :
    ofString id.text = .ok id :=
  ofString_eq_ok_iff.mpr rfl

end SectionId

end Palimpsest
