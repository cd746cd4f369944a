import Palimpsest.Toml.Value

/-
  This file defines the numbers of TOML documents.

  Underscores may stand between digits.  A decimal number has
  no needless zeros at its start.  Integers have 64 bits, and
  only decimal ones have a sign.  These are rules of the
  format.  A float too large to be finite is refused unless it
  is negative, as the library that reads configurations has
  it.

  Key definitions include:
    * `Palimpsest.Toml.digitValue?`
    * `Palimpsest.Toml.ungroup`
    * `Palimpsest.Toml.integer?`
    * `Palimpsest.Toml.IsFloat`
-/

namespace Palimpsest

namespace Toml

------------------------------------------------------------
-- Digits
------------------------------------------------------------

/- The value of a digit of any base up to sixteen. -/
def digitValue? (c : Char) : Option Nat :=
  if '0' ≤ c ∧ c ≤ '9' then some (c.toNat - '0'.toNat)
  else if 'a' ≤ c ∧ c ≤ 'f' then
    some (c.toNat - 'a'.toNat + 10)
  else if 'A' ≤ c ∧ c ≤ 'F' then
    some (c.toNat - 'A'.toNat + 10)
  else none

/- A digit of a base. -/
def IsDigit
    (base : Nat)
    (c : Char) : Prop :=
  ∃ d ∈ digitValue? c, d < base

instance
    (base : Nat)
    (c : Char) : Decidable (IsDigit base c) :=
  match h : digitValue? c with
  | none => isFalse (by simp [IsDigit, h])
  | some d => decidable_of_iff (d < base) (by simp [IsDigit, h])

/- A text of digits of a base only. -/
def AreDigits
    (base : Nat)
    (cs : List Char) : Prop :=
  ∀ c ∈ cs, IsDigit base c

instance
    (base : Nat)
    (cs : List Char) : Decidable (AreDigits base cs) :=
  List.decidableBAll _ _

/- The number that digits stand for. -/
def digitsValue
    (base : Nat)
    (digits : List Char) : Nat :=
  digits.foldl
    (fun n c => n * base + (digitValue? c).getD 0) 0

/-
  Digits without the underscores between them.  There must be
  a digit, and one on either side of each underscore.
-/
def ungroup (base : Nat) : List Char → Option (List Char)
| [] => none
| [c] => if IsDigit base c then some [c] else none
| c :: '_' :: cs =>
    if IsDigit base c then (ungroup base cs).map (c :: ·)
    else none
| c :: cs =>
    if IsDigit base c then (ungroup base cs).map (c :: ·)
    else none

/- The digits of a decimal number, needless zeros refused. -/
def decimalDigits? (cs : List Char) : Option (List Char) :=
  match ungroup 10 cs with
  | some ('0' :: _ :: _) => none
  | digits => digits

/- Whether there is a minus sign, and what follows the sign. -/
def cutSign : List Char → Bool × List Char
| '-' :: cs => (true, cs)
| '+' :: cs => (false, cs)
| cs => (false, cs)

------------------------------------------------------------
-- Integers
------------------------------------------------------------

/- The greatest integer. -/
def maxInteger : Int :=
  9223372036854775807

/- The least integer. -/
def minInteger : Int :=
  -9223372036854775808

/- An integer that is not too large on either side. -/
def bounded? (n : Int) : Option Int :=
  if minInteger ≤ n ∧ n ≤ maxInteger then some n else none

/- The integer with grouped digits of a base. -/
def unsigned?
    (base : Nat)
    (cs : List Char) : Option Int :=
  (ungroup base cs).bind
    (fun digits => bounded? (digitsValue base digits))

/- The decimal integer with an optional sign. -/
def signed? (cs : List Char) : Option Int :=
  let (negative, digits) := cutSign cs
  (decimalDigits? digits).bind (fun digits =>
    let n : Int := digitsValue 10 digits
    bounded? (if negative then -n else n))

/- The integer that a word stands for. -/
def integer? : List Char → Option Int
| '0' :: 'x' :: cs => unsigned? 16 cs
| '0' :: 'o' :: cs => unsigned? 8 cs
| '0' :: 'b' :: cs => unsigned? 2 cs
| cs => signed? cs

------------------------------------------------------------
-- Floats
------------------------------------------------------------

/-
  A decimal: an integer times a power of ten.
-/
structure Decimal where
  digits : Nat
  exponent : Int

namespace Decimal

/- Numbers from here on are rounded to infinity. -/
def overflow : Nat :=
  1 <<< 1024 - 1 <<< 970

/- The greatest exponent of ten of a finite number. -/
def maxExponent : Int :=
  308

/- The decimal is too large to be a finite number. -/
def IsTooLarge (d : Decimal) : Prop :=
  let size : Int := (Nat.toDigits 10 d.digits).length
  if d.digits = 0 then
    False
  else if maxExponent + 1 < size + d.exponent then
    True
  else if size + d.exponent < maxExponent then
    False
  else if 0 ≤ d.exponent then
    overflow ≤ d.digits * Nat.pow 10 d.exponent.toNat
  else
    overflow * Nat.pow 10 (-d.exponent).toNat ≤ d.digits

instance (d : Decimal) : Decidable d.IsTooLarge := by
  unfold IsTooLarge
  infer_instance

end Decimal

/- The exponent after the letter in a float. -/
def exponent? (cs : List Char) : Option Int :=
  let (negative, digits) := cutSign cs
  (ungroup 10 digits).map (fun digits =>
    let n : Int := digitsValue 10 digits
    if negative then -n else n)

/- The digits of a float before and after its point. -/
def mantissa? (cs : List Char) : Option Decimal :=
  match cs.span (fun c => decide (c ≠ '.')) with
  | (whole, []) =>
      (decimalDigits? whole).map
        (fun digits => ⟨digitsValue 10 digits, 0⟩)
  | (whole, _ :: fraction) =>
      (decimalDigits? whole).bind (fun front =>
        (ungroup 10 fraction).map (fun back =>
          ⟨digitsValue 10 (front ++ back),
            -(back.length : Int)⟩))

/- The absolute value of a float with a point or exponent. -/
def magnitude? (cs : List Char) : Option Decimal :=
  match cs.span (fun c => decide (c ≠ 'e' ∧ c ≠ 'E')) with
  | (mantissa, []) =>
      if '.' ∈ mantissa then mantissa? mantissa else none
  | (mantissa, _ :: exponent) =>
      (mantissa? mantissa).bind (fun d =>
        (exponent? exponent).map
          (fun e => { d with exponent := d.exponent + e }))

/- A word that stands for a float. -/
def IsFloat (cs : List Char) : Prop :=
  let (negative, rest) := cutSign cs
  rest = "inf".toList ∨ rest = "nan".toList ∨
    ∃ d ∈ magnitude? rest, negative = true ∨ ¬ d.IsTooLarge

instance (cs : List Char) : Decidable (IsFloat cs) := by
  unfold IsFloat
  have decideSome
      (o : Option Decimal)
      (p : Decimal → Prop)
      [DecidablePred p] : Decidable (∃ d ∈ o, p d) :=
    match o with
    | none => isFalse (by simp)
    | some d => decidable_of_iff (p d) (by simp)
  infer_instance

end Toml

end Palimpsest
