/-
  This file defines the line structure of a text.

  A text is cut at its newline characters and nowhere else:
  a carriage return stays at the end of its line, and a text
  that ends in a newline has an empty last line.

  Key definitions include:
    * `Palimpsest.Text.newline`
    * `Palimpsest.Text.lines`
    * `Palimpsest.Text.unlines`
    * `Palimpsest.Text.joinWith`
-/

namespace Palimpsest

namespace Text

------------------------------------------------------------
-- Cutting And Joining
------------------------------------------------------------

/- The character that separates two lines. -/
def newline : Char :=
  '\n'

/- The parts of a text between the occurrences of a character. -/
def splitAt
    (separator : Char)
    (text : String) : List String :=
  (text.toList.splitOn separator).map String.ofList

/- The texts of a list with a separator between neighbours. -/
def joinWith
    (separator : String)
    (parts : List String) : String :=
  String.ofList
    (separator.toList.intercalate (parts.map String.toList))

/-
  The lines of a text, in order.  Every text has at least one
  line.
-/
def lines (text : String) : List String :=
  splitAt newline text

/- The text whose lines are given, without a final newline. -/
def unlines (ls : List String) : String :=
  joinWith "\n" ls

/- A text repeated a number of times. -/
def repeated
    (count : Nat)
    (text : String) : String :=
  String.ofList (List.replicate count text.toList).flatten

------------------------------------------------------------
-- Views
------------------------------------------------------------

/- The characters of a joined text. -/
@[simp]
theorem toList_joinWith
    (separator : String)
    (parts : List String) :
    (joinWith separator parts).toList =
      separator.toList.intercalate
        (parts.map String.toList) := by
  simp [joinWith]

/- The characters of a repeated text. -/
@[simp]
theorem toList_repeated
    (count : Nat)
    (text : String) :
    (repeated count text).toList =
      (List.replicate count text.toList).flatten := by
  simp [repeated]

end Text

end Palimpsest
