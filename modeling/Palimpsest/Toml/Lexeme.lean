/-
  This file defines the characters of TOML documents and what
  may stand between their parts.

  A line ends in a newline, with or without a carriage return
  before it; the carriage returns are taken out first, so that
  any one that is left is out of place.  Which characters may
  stand where is a rule of the format.

  Key definitions include:
    * `Palimpsest.Toml.foldLineEnds`
    * `Palimpsest.Toml.IsContent`
    * `Palimpsest.Toml.IsBare`
    * `Palimpsest.Toml.skipBlanks`
    * `Palimpsest.Toml.skipTrivia`
    * `Palimpsest.Toml.endLine`
-/

namespace Palimpsest

namespace Toml

------------------------------------------------------------
-- Characters
------------------------------------------------------------

/- Take out the carriage returns before newlines. -/
def foldLineEnds : List Char → List Char
| [] => []
| '\r' :: '\n' :: cs => '\n' :: foldLineEnds cs
| c :: cs => c :: foldLineEnds cs

/- A blank inside a line. -/
def IsSpace (c : Char) : Prop :=
  c = ' ' ∨ c = '\t'

instance (c : Char) : Decidable (IsSpace c) := by
  unfold IsSpace
  infer_instance

/- A character that may stand in comments and strings. -/
def IsContent (c : Char) : Prop :=
  c = '\t' ∨ (0x20 ≤ c.toNat ∧ c.toNat ≠ 0x7F)

instance (c : Char) : Decidable (IsContent c) := by
  unfold IsContent
  infer_instance

/- A character that needs no quotes in a key. -/
def IsBare (c : Char) : Prop :=
  c.isAlphanum = true ∨ c = '_' ∨ c = '-'

instance (c : Char) : Decidable (IsBare c) := by
  unfold IsBare
  infer_instance

/- A character that ends an unquoted value. -/
def EndsWord (c : Char) : Prop :=
  c ∈ [' ', '\t', '\n', ',', ']', '}', '#']

instance (c : Char) : Decidable (EndsWord c) := by
  unfold EndsWord
  infer_instance

------------------------------------------------------------
-- Between The Parts
------------------------------------------------------------

/- Skip blanks inside a line. -/
def skipBlanks (cs : List Char) : List Char :=
  cs.dropWhile (fun c => decide (IsSpace c))

mutual

/- Skip blanks, newlines and comments. -/
def skipTrivia : List Char → Option (List Char)
| [] => some []
| c :: cs =>
    if IsSpace c ∨ c = '\n' then
      skipTrivia cs
    else if c = '#' then
      skipComment cs
    else
      some (c :: cs)

/- Skip the rest of a comment and all that follows it. -/
def skipComment : List Char → Option (List Char)
| [] => some []
| c :: cs =>
    if c = '\n' then
      skipTrivia cs
    else if IsContent c then
      skipComment cs
    else
      none

end

/-
  Skip to the next line after a statement: blanks, a comment,
  and a newline unless the document ends.
-/
def endLine (cs : List Char) : Option (List Char) :=
  match skipBlanks cs with
  | [] => some []
  | '\n' :: rest => some rest
  | '#' :: rest =>
      match rest.dropWhile (fun c => decide (IsContent c)) with
      | [] => some []
      | '\n' :: rest => some rest
      | _ => none
  | _ => none

/- The characters of an unquoted value, and what follows. -/
def cutWord (cs : List Char) : List Char × List Char :=
  cs.span (fun c => decide (¬ EndsWord c))

end Toml

end Palimpsest
