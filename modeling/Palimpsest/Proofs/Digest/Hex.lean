import Mathlib.Data.List.Induction
import Palimpsest.Digest.Hex

/-
  What hexadecimal digits are read as.

  A byte is written as its two digits in base sixteen.  Digits
  of either case are read back, two for each byte, and writing
  the bytes again gives the digits in lower case.  What cannot
  be read is refused for its length if that is odd, and else
  for the first byte that is no digit.

  Main declarations:
    * `Hex.IsDigit`
    * `Hex.decodeFrom_encode`
    * `Hex.exists_decodeFrom_of_digits`
    * `Hex.decodeFrom_of_fault`
    * `Hex.digits_or_fault`
-/

namespace Palimpsest

namespace Hex

------------------------------------------------------------
-- Digits
------------------------------------------------------------

/- A hexadecimal digit of either case. -/
def IsDigit (c : Char) : Prop :=
  c ∈ "0123456789abcdefABCDEF".toList

instance (c : Char) : Decidable (IsDigit c) :=
  inferInstanceAs (Decidable (c ∈ _))

/- The character whose code is a byte. -/
def character (b : UInt8) : Char :=
  Char.ofNat b.toNat

/- What holds of all numbers below 256 holds of all bytes. -/
theorem forall_byte
    {p : UInt8 → Prop}
    (hAll : ∀ n < 256, p (UInt8.ofNat n))
    (b : UInt8) : p b := by
  have hByte := hAll b.toNat b.toNat_lt
  rwa [UInt8.ofNat_toNat] at hByte

/- A byte is the code of its character. -/
theorem toUInt8_character (b : UInt8) :
    (character b).toUInt8 = b :=
  forall_byte (p := fun b => (character b).toUInt8 = b)
    (by decide +kernel) b

/- A byte has a value if it is the code of a digit. -/
theorem value?_eq_none_iff (b : UInt8) :
    value? b = none ↔ ¬ IsDigit (character b) :=
  forall_byte (p := fun b =>
    value? b = none ↔ ¬ IsDigit (character b))
    (by decide +kernel) b

/- The value of a digit is written as it is in lower case. -/
theorem digit_value? (b : UInt8) :
    ∀ n ∈ value? b,
      n < 16 ∧ digit n = (character b).toLower :=
  forall_byte (p := fun b => ∀ n ∈ value? b,
    n < 16 ∧ digit n = (character b).toLower)
    (by decide +kernel) b

/- A digit has a value, which is written as its lower case. -/
theorem IsDigit.exists_value?
    {b : UInt8}
    (hDigit : IsDigit (character b)) :
    ∃ n,
      value? b = some n ∧
        n < 16 ∧ digit n = (character b).toLower := by
  cases hValue : value? b with
  | none =>
      exact absurd hDigit ((value?_eq_none_iff b).mp hValue)
  | some n =>
      exact ⟨n, rfl, digit_value? b n hValue⟩

/- A written digit has its value. -/
theorem value?_digit :
    ∀ n < 16, value? (digit n).toUInt8 = some n := by
  decide

/- What is written for a number below sixteen is a digit. -/
theorem isDigit_digit :
    ∀ n < 16, IsDigit (digit n) := by
  decide

/- What holds of every listed digit holds of a digit. -/
theorem IsDigit.of_all
    {p : Char → Prop}
    [DecidablePred p]
    (hAll : "0123456789abcdefABCDEF".toList.all (p ·) = true)
    {c : Char}
    (hDigit : IsDigit c) : p c :=
  of_decide_eq_true (List.all_eq_true.mp hAll c hDigit)

/- A digit has a one-byte code. -/
theorem IsDigit.utf8Size
    {c : Char}
    (hDigit : IsDigit c) :
    c.utf8Size = 1 :=
  hDigit.of_all (p := fun c => c.utf8Size = 1) (by decide)

/- A digit is the character whose code is its byte. -/
theorem IsDigit.character_toUInt8
    {c : Char}
    (hDigit : IsDigit c) :
    character c.toUInt8 = c :=
  hDigit.of_all (p := fun c => character c.toUInt8 = c)
    (by decide)

------------------------------------------------------------
-- Written Bytes
------------------------------------------------------------

/- The two digits of a byte are its digits in base sixteen. -/
theorem encodeByte_eq (b : UInt8) :
    encodeByte b = (Nat.toDigits 16 (256 + b.toNat)).tail :=
  forall_byte (p := fun b =>
    encodeByte b = (Nat.toDigits 16 (256 + b.toNat)).tail)
    (by decide +kernel) b

/- Each byte is written as two digits. -/
theorem length_encode (bytes : List UInt8) :
    (encode bytes).length = 2 * bytes.length := by
  induction bytes with
  | nil =>
      rfl
  | cons b bytes ih =>
      rw [encode, List.flatMap_cons, List.length_append,
        List.length_cons]
      unfold encode at ih
      rw [ih, encodeByte, List.length_cons,
        List.length_singleton]
      omega

/- The digits of some of the first bytes are written first. -/
theorem encode_take
    (count : Nat)
    (bytes : List UInt8) :
    encode (bytes.take count) =
      (encode bytes).take (2 * count) := by
  have hLength := length_encode (bytes.take count)
  have hBoth : encode bytes =
      encode (bytes.take count) ++
        encode (bytes.drop count) := by
    unfold encode
    rw [← List.flatMap_append, List.take_append_drop]
  by_cases hCount : count ≤ bytes.length
  · rw [List.length_take_of_le hCount] at hLength
    rw [hBoth, ← hLength, List.take_left]
  · rw [List.take_of_length_le (by omega),
      List.take_of_length_le (by
        rw [length_encode]
        omega)]

/- Only digits are written. -/
theorem isDigit_of_mem_encode
    {bytes : List UInt8}
    {c : Char}
    (hMem : c ∈ encode bytes) :
    IsDigit c := by
  rcases List.mem_flatMap.mp hMem with ⟨b, _, hc⟩
  have hSmall : b.toNat < 256 := b.toNat_lt
  rw [encodeByte, List.mem_cons, List.mem_singleton] at hc
  rcases hc with rfl | rfl
  · exact isDigit_digit _ (by omega)
  · exact isDigit_digit _ (by omega)

------------------------------------------------------------
-- Reading Digits
------------------------------------------------------------

variable {digits front back : List UInt8}
variable {b : UInt8}

/- Written bytes are read back. -/
theorem decodeFrom_encode
    (position : Nat)
    (bytes : List UInt8) :
    decodeFrom position ((encode bytes).map Char.toUInt8) =
      .ok bytes := by
  induction bytes generalizing position with
  | nil =>
      rfl
  | cons b bytes ih =>
      have hSmall : b.toNat < 256 := b.toNat_lt
      have hHigh := value?_digit (b.toNat / 16) (by omega)
      have hLow := value?_digit (b.toNat % 16) (by omega)
      have hByte :
          (16 * (b.toNat / 16) + b.toNat % 16).toUInt8 = b := by
        rw [Nat.div_add_mod]
        exact UInt8.ofNat_toNat
      have hStep :
          (encode (b :: bytes)).map Char.toUInt8 =
            (digit (b.toNat / 16)).toUInt8 ::
              (digit (b.toNat % 16)).toUInt8 ::
                (encode bytes).map Char.toUInt8 :=
        rfl
      rw [hStep, decodeFrom, hHigh, hLow, ih]
      dsimp only
      rw [hByte]

/- The byte with two given digits is written as these two. -/
theorem encodeByte_of_values
    {high low : Nat}
    (hHigh : high < 16)
    (hLow : low < 16) :
    encodeByte (16 * high + low).toUInt8 =
      [digit high, digit low] := by
  have hNat : (16 * high + low).toUInt8.toNat =
      16 * high + low :=
    Nat.mod_eq_of_lt (show _ < 256 by omega)
  rw [encodeByte, hNat]
  congr 2
  · omega
  · congr 1
    omega

/-
  An even number of digits is read as bytes, which are written
  as these digits in lower case.
-/
theorem exists_decodeFrom_of_digits
    (hEven : digits.length % 2 = 0)
    (hDigits : ∀ d ∈ digits, IsDigit (character d))
    (position : Nat) :
    ∃ bytes,
      decodeFrom position digits = .ok bytes ∧
        encode bytes =
          digits.map (fun d => (character d).toLower) := by
  -- Two digits are read at a time.
  induction digits using List.twoStepInduction
    generalizing position with
  | nil =>
      exact ⟨[], rfl, rfl⟩
  | singleton d =>
      simp at hEven
  | cons_cons high low rest ih _ =>
      simp only [List.forall_mem_cons] at hDigits
      rcases hDigits with ⟨hHigh, hLow, hRest⟩
      have hEvenRest : rest.length % 2 = 0 := by
        simp only [List.length_cons] at hEven
        omega
      rcases ih hEvenRest hRest (position + 2) with
        ⟨bytes, hRead, hWritten⟩
      rcases hHigh.exists_value? with
        ⟨m, hValue, hSmall, hShown⟩
      rcases hLow.exists_value? with
        ⟨n, hValue', hSmall', hShown'⟩
      refine ⟨(16 * m + n).toUInt8 :: bytes, ?_, ?_⟩
      · rw [decodeFrom, hValue, hValue', hRead]
      · rw [encode, List.flatMap_cons,
          encodeByte_of_values hSmall hSmall', hShown,
          hShown']
        exact congrArg _ hWritten

/- The first byte that is no digit is at fault. -/
theorem decodeFrom_of_fault
    (hEven : (front ++ b :: back).length % 2 = 0)
    (hFront : ∀ d ∈ front, IsDigit (character d))
    (hFault : ¬ IsDigit (character b))
    (position : Nat) :
    decodeFrom position (front ++ b :: back) =
      .error
        (.invalidDigit b (position + front.length)) := by
  have hNone : value? b = none :=
    (value?_eq_none_iff b).mpr hFault
  -- The faulty byte is the first or the second of its pair.
  induction front using List.twoStepInduction
    generalizing position with
  | nil =>
      cases back with
      | nil =>
          simp at hEven
      | cons low back =>
          rw [List.nil_append, decodeFrom, hNone]
          rfl
  | singleton d =>
      rcases (hFront d List.mem_cons_self).exists_value? with
        ⟨_, hValue, _⟩
      rw [List.singleton_append, decodeFrom, hValue, hNone]
      rfl
  | cons_cons high low rest ih _ =>
      simp only [List.forall_mem_cons] at hFront
      rcases hFront with ⟨hHigh, hLow, hRest⟩
      have hEvenRest :
          (rest ++ b :: back).length % 2 = 0 := by
        simp only [List.cons_append, List.length_cons] at hEven
        omega
      rcases hHigh.exists_value? with ⟨_, hValue, _⟩
      rcases hLow.exists_value? with ⟨_, hValue', _⟩
      rw [List.cons_append, List.cons_append, decodeFrom,
        hValue, hValue', ih hEvenRest hRest (position + 2)]
      simp only [List.length_cons]
      congr 2
      omega

/- An even number of digits is read pair by pair. -/
theorem decode_of_even
    (hEven : digits.length % 2 = 0) :
    decode digits = decodeFrom 0 digits :=
  if_neg (by omega)

/- All bytes are digits, or there is a first that is none. -/
theorem digits_or_fault (digits : List UInt8) :
    (∀ d ∈ digits, IsDigit (character d)) ∨
      ∃ front b back,
        digits = front ++ b :: back ∧
          (∀ d ∈ front, IsDigit (character d)) ∧
            ¬ IsDigit (character b) := by
  cases hFind : digits.find?
      (fun d => ¬ IsDigit (character d)) with
  | none =>
      left
      simpa using List.find?_eq_none.mp hFind
  | some b =>
      right
      rcases List.find?_eq_some_iff_append.mp hFind with
        ⟨hFault, front, back, hDigits, hFront⟩
      exact ⟨front, b, back, hDigits,
        by simpa using hFront, by simpa using hFault⟩

end Hex

end Palimpsest
