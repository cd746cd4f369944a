import Palimpsest.Toml.Lexeme
import Palimpsest.Toml.Number

/-
  This file defines the quoted texts of TOML documents.

  A text stands between quotes, double or single, on one line
  or, with three quotes on either side, on many.  Between
  double quotes a backslash starts an escape.  In the long
  forms a newline right after the opening quotes is dropped,
  up to two quotes may stand before the closing ones, and a
  backslash at the end of a line joins it with what follows.

  A quoted text is read in two steps: its extent is cut out,
  and then its escapes are resolved.  Both follow the rules of
  the format.

  Key definitions include:
    * `Palimpsest.Toml.Quote`
    * `Palimpsest.Toml.Quote.cutShort`
    * `Palimpsest.Toml.Quote.cutLong`
    * `Palimpsest.Toml.unescape`
    * `Palimpsest.Toml.IsRaw`
    * `Palimpsest.Toml.Quote.resolve`
    * `Palimpsest.Toml.readQuoted`
-/

namespace Palimpsest

namespace Toml

------------------------------------------------------------
-- Quotes
------------------------------------------------------------

/- The two kinds of quotes. -/
inductive Quote where
| double
| single
deriving DecidableEq, Repr

namespace Quote

/- The character of a quote. -/
def mark : Quote → Char
| .double => '"'
| .single => '\''

/- The three characters around a text on many lines. -/
def fence (q : Quote) : List Char :=
  List.replicate 3 q.mark

/- The character starts an escape between such quotes. -/
def Escapes
    (q : Quote)
    (c : Char) : Prop :=
  q = .double ∧ c = '\\'

instance (q : Quote) (c : Char) : Decidable (q.Escapes c) := by
  unfold Escapes
  infer_instance

------------------------------------------------------------
-- Extents
------------------------------------------------------------

/- Put a character in front of what was cut out. -/
def keep
    (c : Char)
    (cut : List Char × List Char) : List Char × List Char :=
  (c :: cut.1, cut.2)

/-
  The text up to the closing quote on the same line, and what
  follows that quote.
-/
def cutShort
    (q : Quote) : List Char → Option (List Char × List Char)
| [] => none
| c :: cs =>
    if c = '\n' then
      none
    else if c = q.mark then
      some ([], cs)
    else if q.Escapes c then
      match cs with
      | [] => none
      | d :: ds =>
          if d = '\n' then
            none
          else
            (q.cutShort ds).map
              (fun cut => keep c (keep d cut))
    else
      (q.cutShort cs).map (keep c)

/- The most quotes that may stand before the closing ones. -/
def maxInnerMarks : Nat :=
  2

/-
  The text up to the last three of the quotes that close it,
  and what follows them.
-/
def cutLong
    (q : Quote) : List Char → Option (List Char × List Char)
| [] => none
| c :: cs =>
    if q.fence.isPrefixOf (c :: cs) then
      let inner :=
        ((cs.drop 2).take maxInnerMarks).takeWhile
          (fun d => decide (d = q.mark))
      some (inner, (cs.drop 2).drop inner.length)
    else if q.Escapes c then
      match cs with
      | [] => none
      | d :: ds =>
          (q.cutLong ds).map (fun cut => keep c (keep d cut))
    else
      (q.cutLong cs).map (keep c)

end Quote

------------------------------------------------------------
-- Escapes
------------------------------------------------------------

/- The character that an escape with one letter stands for. -/
def letter? : Char → Option Char
| 'b' => some '\x08'
| 't' => some '\t'
| 'n' => some '\n'
| 'f' => some '\x0c'
| 'r' => some '\r'
| '"' => some '"'
| '\\' => some '\\'
| _ => none

/- The character whose code point hexadecimal digits give. -/
def codePoint? (digits : List Char) : Option Char :=
  if AreDigits 16 digits then
    let n := digitsValue 16 digits
    if n.isValidChar then some (Char.ofNat n) else none
  else
    none

/-
  What is skipped after a backslash at the end of a line: the
  blanks up to the newline, and then all blanks and newlines.
-/
inductive Skipping where
| nothing
| toLineEnd
| toText
deriving DecidableEq, Repr

/- A blank or a newline. -/
def IsGap (c : Char) : Prop :=
  IsSpace c ∨ c = '\n'

instance (c : Char) : Decidable (IsGap c) := by
  unfold IsGap
  infer_instance

/- Resolve the escapes in what stood between double quotes. -/
def unescape :
    Skipping → List Char → Option (List Char)
| .toLineEnd, [] => none
| .nothing, [] => some []
| .toText, [] => some []
| skipping, c :: cs =>
    if skipping = .toLineEnd then
      if c = '\n' then
        unescape .toText cs
      else if IsSpace c then
        unescape .toLineEnd cs
      else
        none
    else if skipping = .toText ∧ IsGap c then
      unescape .toText cs
    else if c = '\\' then
      match cs with
      | [] => none
      | 'u' :: h₁ :: h₂ :: h₃ :: h₄ :: rest =>
          (codePoint? [h₁, h₂, h₃, h₄]).bind (fun x =>
            (unescape .nothing rest).map (x :: ·))
      | 'U' :: h₁ :: h₂ :: h₃ :: h₄ ::
          h₅ :: h₆ :: h₇ :: h₈ :: rest =>
          (codePoint?
              [h₁, h₂, h₃, h₄, h₅, h₆, h₇, h₈]).bind (fun x =>
            (unescape .nothing rest).map (x :: ·))
      | d :: rest =>
          match letter? d with
          | some x => (unescape .nothing rest).map (x :: ·)
          | none =>
              if d = '\n' then
                unescape .toText rest
              else if IsSpace d then
                unescape .toLineEnd rest
              else
                none
    else if IsContent c ∨ c = '\n' then
      (unescape .nothing cs).map (c :: ·)
    else
      none

/- A text that can stand between quotes as it is. -/
def IsRaw (text : List Char) : Prop :=
  ∀ c ∈ text, IsContent c ∨ c = '\n'

instance (text : List Char) : Decidable (IsRaw text) :=
  List.decidableBAll _ _

namespace Quote

/- The text that stood between quotes. -/
def resolve
    (q : Quote)
    (raw : List Char) : Option (List Char) :=
  match q with
  | .double => unescape .nothing raw
  | .single =>
      if IsRaw raw then some raw else none

/- Resolve what was cut out, and make a text of it. -/
def finish
    (q : Quote)
    (cut : Option (List Char × List Char)) :
    Option (String × List Char) :=
  cut.bind (fun (raw, rest) =>
    (q.resolve raw).map
      (fun text => (String.ofList text, rest)))

/- Read a text on one line after its opening quote. -/
def readShort
    (q : Quote)
    (cs : List Char) : Option (String × List Char) :=
  q.finish (q.cutShort cs)

/- Drop a newline at the very start. -/
def dropFirstNewline : List Char → List Char
| '\n' :: cs => cs
| cs => cs

/- Read a text on many lines after its opening quotes. -/
def readLong
    (q : Quote)
    (cs : List Char) : Option (String × List Char) :=
  q.finish (q.cutLong (dropFirstNewline cs))

end Quote

/- Read a text with its quotes. -/
def readQuoted : List Char → Option (String × List Char)
| '"' :: '"' :: '"' :: cs => Quote.double.readLong cs
| '"' :: cs => Quote.double.readShort cs
| '\'' :: '\'' :: '\'' :: cs => Quote.single.readLong cs
| '\'' :: cs => Quote.single.readShort cs
| _ => none

end Toml

end Palimpsest
