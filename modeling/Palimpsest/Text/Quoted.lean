import Palimpsest.Text.Plain

/-
  This file defines the quoted form of a text, as messages
  show it.

  A quoted text stands between two delimiters.  The delimiter
  and the backslash are preceded by a backslash; newline,
  carriage return, tab and the null character have a letter of
  their own; every other character that is not plain is
  written by its code point in lower-case hexadecimal digits.

  Key definitions include:
    * `Palimpsest.Text.escapeChar`
    * `Palimpsest.Text.quoted`
    * `Palimpsest.Text.quotedChar`
-/

namespace Palimpsest

namespace Text

------------------------------------------------------------
-- Escapes
------------------------------------------------------------

/- The digits of a number in lower-case hexadecimal. -/
def hexDigits (n : Nat) : List Char :=
  Nat.toDigits 16 n

/- A character written by its code point. -/
def escapeCode (c : Char) : List Char :=
  ['\\', 'u', '{'] ++ hexDigits c.toNat ++ ['}']

/- The form of one character between the given delimiters. -/
def escapeChar
    (delimiter c : Char) : List Char :=
  if c = delimiter ∨ c = '\\' then ['\\', c]
  else if c = '\n' then ['\\', 'n']
  else if c = '\r' then ['\\', 'r']
  else if c = '\t' then ['\\', 't']
  else if c = '\x00' then ['\\', '0']
  else if IsPlain c then [c]
  else escapeCode c

------------------------------------------------------------
-- Quoted Texts And Characters
------------------------------------------------------------

/- A text between double quotes. -/
def quoted (text : String) : String :=
  String.ofList
    ('"' :: text.toList.flatMap (escapeChar '"') ++ ['"'])

/- A character between single quotes. -/
def quotedChar (c : Char) : String :=
  String.ofList ('\'' :: escapeChar '\'' c ++ ['\''])

end Text

end Palimpsest
