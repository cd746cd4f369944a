import Palimpsest.Toml.Number

/-
  This file defines the moments of TOML documents: dates,
  times of day, and both together.

  Dates are those of the calendar, with leap years.  A minute
  may have a leap second.  A moment is kept in one spelling: a
  capital T between date and time, at most nine digits after
  the seconds without zeros at their end, and the offset Z, or
  hours and minutes with a sign.  What a moment may look like
  is a rule of the format; the one spelling is that of the
  library that reads configurations.

  Key definitions include:
    * `Palimpsest.Toml.Moment.date`
    * `Palimpsest.Toml.Moment.time`
    * `Palimpsest.Toml.Moment.offset`
    * `Palimpsest.Toml.Moment.ofWord?`
    * `Palimpsest.Toml.Moment.ofWords?`
-/

namespace Palimpsest

namespace Toml

namespace Moment

------------------------------------------------------------
-- Parts
------------------------------------------------------------

/- A spelling, and what follows the part that was read. -/
abbrev Part :=
  Option (List Char × List Char)

/- The number that two decimal digits stand for. -/
def twoDigits? (tens ones : Char) : Option Nat :=
  if IsDigit 10 tens ∧ IsDigit 10 ones then
    some (digitsValue 10 [tens, ones])
  else
    none

/- A year with a day more in February. -/
def IsLeap (year : Nat) : Prop :=
  year % 4 = 0 ∧ (year % 100 ≠ 0 ∨ year % 400 = 0)

instance (year : Nat) : Decidable (IsLeap year) := by
  unfold IsLeap
  infer_instance

/- The number of days in a month. -/
def daysIn
    (year month : Nat) : Nat :=
  if month = 2 then
    if IsLeap year then 29 else 28
  else if month ∈ [4, 6, 9, 11] then
    30
  else
    31

/- Numbers that name a day. -/
def IsDate
    (year month day : Nat) : Prop :=
  1 ≤ month ∧ month ≤ 12 ∧
    1 ≤ day ∧ day ≤ daysIn year month

instance (year month day : Nat) :
    Decidable (IsDate year month day) := by
  unfold IsDate
  infer_instance

/- Read a date. -/
def date : List Char → Part
| y₁ :: y₂ :: y₃ :: y₄ :: '-' :: m₁ :: m₂ :: '-' ::
    d₁ :: d₂ :: rest => do
    let century ← twoDigits? y₁ y₂
    let year ← twoDigits? y₃ y₄
    let month ← twoDigits? m₁ m₂
    let day ← twoDigits? d₁ d₂
    if IsDate (century * 100 + year) month day then
      some ([y₁, y₂, y₃, y₄, '-', m₁, m₂, '-', d₁, d₂], rest)
    else
      none
| _ => none

/- The number of digits that are kept after the seconds. -/
def precision : Nat :=
  9

/- Digits without zeros at their end. -/
def dropFinalZeros (digits : List Char) : List Char :=
  (digits.reverse.dropWhile
    (fun c => decide (c = '0'))).reverse

/- Read the digits after the seconds, if there is a point. -/
def fraction : List Char → Part
| '.' :: cs =>
    match cs.span (fun c => decide (IsDigit 10 c)) with
    | ([], _) => none
    | (digits, rest) =>
        match dropFinalZeros (digits.take precision) with
        | [] => some ([], rest)
        | kept => some ('.' :: kept, rest)
| cs => some ([], cs)

/- Read a time of day. -/
def time : List Char → Part
| h₁ :: h₂ :: ':' :: m₁ :: m₂ :: ':' :: s₁ :: s₂ :: rest => do
    let hour ← twoDigits? h₁ h₂
    let minute ← twoDigits? m₁ m₂
    let second ← twoDigits? s₁ s₂
    if hour ≤ 23 ∧ minute ≤ 59 ∧ second ≤ 60 then
      let (more, rest) ← fraction rest
      some ([h₁, h₂, ':', m₁, m₂, ':', s₁, s₂] ++ more, rest)
    else
      none
| _ => none

/- Read an offset from universal time, if there is one. -/
def offset : List Char → Part
| [] => some ([], [])
| 'Z' :: rest => some (['Z'], rest)
| 'z' :: rest => some (['Z'], rest)
| sign :: h₁ :: h₂ :: ':' :: m₁ :: m₂ :: rest => do
    let hours ← twoDigits? h₁ h₂
    let minutes ← twoDigits? m₁ m₂
    if (sign = '+' ∨ sign = '-') ∧
        hours ≤ 23 ∧ minutes ≤ 59 then
      let shown := if hours = 0 ∧ minutes = 0 then '+' else sign
      some ([shown, h₁, h₂, ':', m₁, m₂], rest)
    else
      none
| _ => none

------------------------------------------------------------
-- Whole Moments
------------------------------------------------------------

/- The spelling of a part that nothing follows. -/
def whole : Part → Option (List Char)
| some (spelling, []) => some spelling
| _ => none

/- Read a time of day and the offset after it. -/
def timeAndOffset (cs : List Char) : Part := do
  let (day, rest) ← time cs
  let (shift, rest) ← offset rest
  some (day ++ shift, rest)

/- Read the letter between date and time, and the time. -/
def delimitedTime : List Char → Part
| 'T' :: cs => timeAndOffset cs
| 't' :: cs => timeAndOffset cs
| _ => none

/-
  The moment that a word stands for: a date, a time of day, or
  a date and a time with the letter T between them.
-/
def ofWord? (cs : List Char) : Option (List Char) :=
  match date cs with
  | some (day, []) => some day
  | some (day, rest) =>
      (whole (delimitedTime rest)).map
        (fun time => day ++ 'T' :: time)
  | none => whole (time cs)

/-
  The moment that two words stand for: a date, and after a
  blank a time of day.
-/
def ofWords? (first second : List Char) :
    Option (List Char) :=
  (whole (date first)).bind (fun day =>
    (whole (timeAndOffset second)).map
      (fun time => day ++ 'T' :: time))

end Moment

end Toml

end Palimpsest
