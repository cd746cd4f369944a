/-
  This file defines the blank characters and the texts that
  hold nothing else.

  The blank characters are those with the Unicode property
  White_Space.

  Key definitions include:
    * `Palimpsest.Text.blankRanges`
    * `Palimpsest.Text.IsBlankChar`
    * `Palimpsest.Text.IsBlank`
    * `Palimpsest.Text.trimStart`
-/

namespace Palimpsest

namespace Text

------------------------------------------------------------
-- Blank Characters
------------------------------------------------------------

/- The code points with the property White_Space, as ranges. -/
def blankRanges : List (Nat × Nat) :=
  [(0x9, 0xd), (0x20, 0x20), (0x85, 0x85), (0xa0, 0xa0),
   (0x1680, 0x1680), (0x2000, 0x200a), (0x2028, 0x2029),
   (0x202f, 0x202f), (0x205f, 0x205f), (0x3000, 0x3000)]

/- A character lies in one of the given ranges of code points. -/
def InRanges
    (ranges : List (Nat × Nat))
    (c : Char) : Prop :=
  ∃ range ∈ ranges, range.1 ≤ c.toNat ∧ c.toNat ≤ range.2

instance
    (ranges : List (Nat × Nat))
    (c : Char) :
    Decidable (InRanges ranges c) := by
  unfold InRanges
  infer_instance

/- A blank character. -/
def IsBlankChar (c : Char) : Prop :=
  InRanges blankRanges c

instance (c : Char) : Decidable (IsBlankChar c) := by
  unfold IsBlankChar
  infer_instance

------------------------------------------------------------
-- Blank Texts
------------------------------------------------------------

/- A text that is empty or holds blank characters only. -/
def IsBlank (text : List Char) : Prop :=
  ∀ c ∈ text, IsBlankChar c

instance (text : List Char) : Decidable (IsBlank text) :=
  List.decidableBAll _ _

/- A text without its leading blank characters. -/
def trimStart (text : List Char) : List Char :=
  text.dropWhile (fun c => decide (IsBlankChar c))

end Text

end Palimpsest
