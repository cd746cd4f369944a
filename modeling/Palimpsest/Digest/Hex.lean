import Palimpsest.Text.Quoted

/-
  This file defines the hexadecimal form of bytes: two
  lower-case digits for each byte.  Digits of either case are
  read back.  The coding is the usual one; which fault comes
  first, an odd length before a character that is no digit, is
  up to the library that reads checksums.

  Key definitions include:
    * `Palimpsest.Hex.encode`
    * `Palimpsest.Hex.Error`
    * `Palimpsest.Hex.decode`
-/

namespace Palimpsest

namespace Hex

------------------------------------------------------------
-- Writing
------------------------------------------------------------

/- The digit for a number below sixteen. -/
def digit (n : Nat) : Char :=
  if n < 10 then
    Char.ofNat ('0'.toNat + n)
  else
    Char.ofNat ('a'.toNat + (n - 10))

/- The two digits of a byte. -/
def encodeByte (b : UInt8) : List Char :=
  [digit (b.toNat / 16), digit (b.toNat % 16)]

/- The digits of a list of bytes. -/
def encode (bytes : List UInt8) : List Char :=
  bytes.flatMap encodeByte

------------------------------------------------------------
-- Reading
------------------------------------------------------------

/-
  The ways in which bytes can fail to be hexadecimal digits.
  A byte that is no digit is given with its position.
-/
inductive Error where
| oddLength
| invalidDigit (byte : UInt8) (position : Nat)
deriving DecidableEq, Repr

/- The message for a text that is not hexadecimal. -/
def Error.message : Error → String
| .oddLength => "Odd number of digits"
| .invalidDigit byte position =>
    "Invalid character " ++
      Text.quotedChar (Char.ofNat byte.toNat) ++
        " at position " ++ toString position

/- The value of a digit, given as a byte. -/
def value? (b : UInt8) : Option Nat :=
  if 0x30 ≤ b ∧ b ≤ 0x39 then
    some (b.toNat - 0x30)
  else if 0x61 ≤ b ∧ b ≤ 0x66 then
    some (b.toNat - 0x61 + 10)
  else if 0x41 ≤ b ∧ b ≤ 0x46 then
    some (b.toNat - 0x41 + 10)
  else
    none

/- The bytes of pairs of digits that start at a position. -/
def decodeFrom
    (position : Nat) :
    List UInt8 → Except Error (List UInt8)
| [] => .ok []
| [_] => .error .oddLength
| high :: low :: rest =>
    match value? high with
    | none => .error (.invalidDigit high position)
    | some h =>
        match value? low with
        | none => .error (.invalidDigit low (position + 1))
        | some l =>
            match decodeFrom (position + 2) rest with
            | .error e => .error e
            | .ok bytes => .ok ((16 * h + l).toUInt8 :: bytes)

/-
  The bytes that a list of digits stands for.  An odd number
  of digits is refused before any digit is looked at.
-/
def decode
    (digits : List UInt8) : Except Error (List UInt8) :=
  if digits.length % 2 = 1 then
    .error .oddLength
  else
    decodeFrom 0 digits

end Hex

end Palimpsest
