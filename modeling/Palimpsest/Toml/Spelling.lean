import Palimpsest.Text.Search
import Palimpsest.Toml.Quote

/-
  This file defines how texts and keys are spelled in a TOML
  document.

  A text is written without escapes where that is possible: on
  one line between double quotes, else between single quotes,
  else on many lines between double or single quotes.  Failing
  all these it is written between double quotes with escapes,
  on many lines if it has many.  A key is written bare if it
  can be, and on one line otherwise.

  The format only says which spellings can be read back.  The
  choice among them is that of the library that writes
  configurations.

  Key definitions include:
    * `Palimpsest.Toml.Form`
    * `Palimpsest.Toml.escape`
    * `Palimpsest.Toml.Form.ofText`
    * `Palimpsest.Toml.Form.ofName`
    * `Palimpsest.Toml.spellText`
    * `Palimpsest.Toml.spellName`
    * `Palimpsest.Toml.entryLine`
    * `Palimpsest.Toml.headerLine`
-/

namespace Palimpsest

namespace Toml

------------------------------------------------------------
-- Forms
------------------------------------------------------------

/- The forms of a quoted text. -/
inductive Form where
| short
    (q : Quote)
| long
    (q : Quote)
deriving DecidableEq, Repr

namespace Form

/- The quotes of a form. -/
def quote : Form → Quote
| .short q => q
| .long q => q

/- The characters around a text. -/
def delimiter : Form → List Char
| .short q => [q.mark]
| .long q => q.fence

/- The form has many lines. -/
def IsLong : Form → Prop
| .short _ => False
| .long _ => True

instance (f : Form) : Decidable f.IsLong := by
  cases f <;> unfold IsLong <;> infer_instance

/- The most quotes in a row that need no escape. -/
def maxMarks (f : Form) : Nat :=
  if f.IsLong then Quote.maxInnerMarks else 0

end Form

------------------------------------------------------------
-- Escapes
------------------------------------------------------------

/- The escape of a control character without a letter. -/
def escapeControl (c : Char) : List Char :=
  let digits := (Nat.toDigits 16 c.toNat).map Char.toUpper
  ['\\', 'u'] ++ List.replicate (4 - digits.length) '0' ++ digits

/- A character, escaped if it has to be; quotes aside. -/
def escapeChar
    (f : Form)
    (c : Char) : List Char :=
  if c = '\x08' then ['\\', 'b']
  else if c = '\t' then ['\\', 't']
  else if c = '\n' then
    if f.IsLong then ['\n'] else ['\\', 'n']
  else if c = '\x0c' then ['\\', 'f']
  else if c = '\r' then ['\\', 'r']
  else if c = '\\' then ['\\', '\\']
  else if IsContent c then [c]
  else escapeControl c

/-
  A text between double quotes, given how many quotes stand
  right before it without an escape.
-/
def escape (f : Form) : Nat → List Char → List Char
| _, [] => []
| marks, c :: cs =>
    if c = '"' then
      if marks < f.maxMarks then
        '"' :: escape f (marks + 1) cs
      else
        '\\' :: '"' :: escape f 0 cs
    else
      escapeChar f c ++ escape f 0 cs

------------------------------------------------------------
-- Choosing A Form
------------------------------------------------------------

/-
  A text that needs no escape between double quotes, but for
  those quotes.
-/
def IsPlain (text : List Char) : Prop :=
  IsRaw text ∧ '\\' ∉ text

instance (text : List Char) : Decidable (IsPlain text) := by
  unfold IsPlain
  infer_instance

/- A text with three such quotes in a row. -/
def HasFence
    (q : Quote)
    (text : List Char) : Prop :=
  Text.Occurs q.fence text

instance (q : Quote) (text : List Char) :
    Decidable (HasFence q text) := by
  unfold HasFence
  infer_instance

namespace Form

/- The form in which a text is written. -/
def ofText (text : List Char) : Form :=
  if IsPlain text ∧ '"' ∉ text ∧ '\n' ∉ text then
    .short .double
  else if IsRaw text ∧ '\'' ∉ text ∧ '\n' ∉ text then
    .short .single
  else if IsPlain text ∧ ¬ HasFence .double text then
    .long .double
  else if IsRaw text ∧ ¬ HasFence .single text then
    .long .single
  else if '\n' ∈ text then
    .long .double
  else
    .short .double

/- The form in which a name is written that is not bare. -/
def ofName (name : List Char) : Form :=
  if IsPlain name ∧ '"' ∉ name ∧ '\n' ∉ name then
    .short .double
  else if IsRaw name ∧ '\'' ∉ name ∧ '\n' ∉ name then
    .short .single
  else
    .short .double

/- The newline after the opening quotes, if there is one. -/
def opening
    (f : Form)
    (text : List Char) : List Char :=
  if f.IsLong ∧ '\n' ∈ text then ['\n'] else []

/- What stands between the quotes. -/
def body
    (f : Form)
    (text : List Char) : List Char :=
  match f.quote with
  | .double => escape f 0 text
  | .single => text

/- A text with its quotes. -/
def spell
    (f : Form)
    (text : List Char) : List Char :=
  f.delimiter ++ f.opening text ++ f.body text ++ f.delimiter

end Form

------------------------------------------------------------
-- Spelling
------------------------------------------------------------

/- A text of characters that need no quotes in a key. -/
def AreBare (cs : List Char) : Prop :=
  ∀ c ∈ cs, IsBare c

instance (cs : List Char) : Decidable (AreBare cs) :=
  List.decidableBAll _ _

/- A name that needs no quotes. -/
def IsBareName (name : List Char) : Prop :=
  name ≠ [] ∧ AreBare name

instance (name : List Char) : Decidable (IsBareName name) := by
  unfold IsBareName
  infer_instance

/- The spelling of a text. -/
def spellText (text : String) : List Char :=
  (Form.ofText text.toList).spell text.toList

/- The spelling of a name. -/
def spellName (name : String) : List Char :=
  if IsBareName name.toList then
    name.toList
  else
    (Form.ofName name.toList).spell name.toList

------------------------------------------------------------
-- Lines
------------------------------------------------------------

/- The line of an entry, given the spelling of its value. -/
def entryLine
    (name : String)
    (value : List Char) : List Char :=
  spellName name ++ " = ".toList ++ value ++ ['\n']

/- The line of a header. -/
def headerLine (name : String) : List Char :=
  '[' :: spellName name ++ [']', '\n']

end Toml

end Palimpsest
