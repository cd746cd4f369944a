import Palimpsest.Digest.Checksum
import Palimpsest.Proofs.Digest.Hex
import Palimpsest.Proofs.Text.Bytes

/-
  Checksums survive being shown and read again.

  A text is a checksum if it consists of 64 hexadecimal digits
  of either case; the checksum is then shown as the text in
  lower case.  Every other text has one fault: an odd number
  of bytes, else the first byte that is no digit, else the
  wrong length.

  Main declarations:
    * `Hex.IsNumeral`
    * `Checksum.FaultIn`
    * `Checksum.parse_display`
    * `Checksum.exists_parse_of_isNumeral`
    * `Checksum.parse_of_faultIn`
    * `Checksum.shown_and_read_again`
-/

namespace Palimpsest

------------------------------------------------------------
-- Numerals And Faults
------------------------------------------------------------

/- A text that consists of a number of digits. -/
structure Hex.IsNumeral
    (text : String)
    (count : Nat) : Prop where
  length : text.length = count
  digits : ∀ c ∈ text.toList, Hex.IsDigit c

namespace Checksum

/- The fault of a text that is no checksum. -/
inductive FaultIn (text : String) : ChecksumError → Prop
| oddLength
    (hOdd : text.utf8ByteSize % 2 = 1) :
    FaultIn text (.hexDecode .oddLength)
| invalidDigit
    {front back : List UInt8}
    {b : UInt8}
    (hEven : text.utf8ByteSize % 2 = 0)
    (hBytes : text.toUTF8.toList = front ++ b :: back)
    (hFront : ∀ d ∈ front, Hex.IsDigit (Hex.character d))
    (hFault : ¬ Hex.IsDigit (Hex.character b)) :
    FaultIn text
      (.hexDecode (.invalidDigit b front.length))
| invalidLength
    (hEven : text.utf8ByteSize % 2 = 0)
    (hDigits : ∀ d ∈ text.toUTF8.toList,
      Hex.IsDigit (Hex.character d))
    (hLength : text.utf8ByteSize ≠ 64) :
    FaultIn text (.invalidLength (text.utf8ByteSize / 2))

------------------------------------------------------------
-- Shown Checksums
------------------------------------------------------------

/- A shown checksum is read as itself. -/
theorem parse_display (c : Checksum) :
    parse c.display = .ok c := by
  have hBytes : c.display.toUTF8.toList =
      (Hex.encode c.bytes).map Char.toUInt8 :=
    Text.bytes_ofList (fun _ hd =>
      (Hex.isDigit_of_mem_encode hd).utf8Size)
  have hEven :
      ((Hex.encode c.bytes).map Char.toUInt8).length % 2 =
        0 := by
    rw [List.length_map, Hex.length_encode]
    omega
  rw [parse, hBytes, Hex.decode_of_even hEven,
    Hex.decodeFrom_encode]
  exact dif_pos c.length_bytes

/- Checksums that are shown alike are the same. -/
theorem eq_of_display
    {c d : Checksum}
    (hShown : c.display = d.display) :
    c = d := by
  have hRead := parse_display c
  rw [hShown, parse_display] at hRead
  exact (Except.ok.inj hRead).symm

/- The short form is the beginning of the long one. -/
theorem toList_short (c : Checksum) :
    c.short.toList = c.display.toList.take 16 := by
  rw [short, display, String.toList_ofList,
    String.toList_ofList]
  exact Hex.encode_take 8 c.bytes

------------------------------------------------------------
-- Texts That Are Read
------------------------------------------------------------

variable {text : String}

/- The bytes of a numeral are the codes of its digits. -/
theorem bytes_of_isNumeral
    {count : Nat}
    (hNumeral : Hex.IsNumeral text count) :
    text.toUTF8.toList = text.toList.map Char.toUInt8 := by
  have hBytes := Text.bytes_ofList (fun c hc =>
    (hNumeral.digits c hc).utf8Size)
  rwa [String.ofList_toList] at hBytes

/-
  A numeral of 64 digits is the checksum that is shown as the
  numeral in lower case.
-/
theorem exists_parse_of_isNumeral
    (hNumeral : Hex.IsNumeral text 64) :
    ∃ c, parse text = .ok c ∧ c.display = text.toLower := by
  have hCount : text.toList.length = 64 := by
    rw [String.length_toList, hNumeral.length]
  have hEven :
      (text.toList.map Char.toUInt8).length % 2 = 0 := by
    rw [List.length_map, hCount]
  have hDigits : ∀ d ∈ text.toList.map Char.toUInt8,
      Hex.IsDigit (Hex.character d) := by
    intro d hd
    rcases List.mem_map.mp hd with ⟨c, hc, rfl⟩
    rw [(hNumeral.digits c hc).character_toUInt8]
    exact hNumeral.digits c hc
  rcases Hex.exists_decodeFrom_of_digits hEven hDigits 0 with
    ⟨bytes, hRead, hWritten⟩
  have hLower : Hex.encode bytes =
      text.toList.map Char.toLower := by
    rw [hWritten, List.map_map]
    apply List.map_congr_left
    intro c hc
    rw [Function.comp_apply,
      (hNumeral.digits c hc).character_toUInt8]
  have hLength : bytes.length = 32 := by
    have hBoth := congrArg List.length hLower
    rw [Hex.length_encode, List.length_map, hCount] at hBoth
    omega
  refine ⟨⟨bytes, hLength⟩, ?_, ?_⟩
  · rw [parse, bytes_of_isNumeral hNumeral,
      Hex.decode_of_even hEven, hRead]
    exact dif_pos hLength
  · have hText : text.toLower = text.map Char.toLower :=
      rfl
    rw [display, hLower, hText, ← String.toList_map,
      String.ofList_toList]

/- A text with a fault is refused for it. -/
theorem parse_of_faultIn
    {e : ChecksumError}
    (hFault : FaultIn text e) :
    parse text = .error e := by
  have hSize := Text.length_bytes text
  cases hFault with
  | oddLength hOdd =>
      rw [← hSize] at hOdd
      rw [parse, Hex.decode, if_pos hOdd]
  | invalidDigit hEven hBytes hFront hFault =>
      rw [← hSize, hBytes] at hEven
      rw [parse, hBytes, Hex.decode_of_even hEven,
        Hex.decodeFrom_of_fault hEven hFront hFault,
        Nat.zero_add]
  | invalidLength hEven hDigits hLength =>
      rw [← hSize] at hEven
      rcases Hex.exists_decodeFrom_of_digits hEven hDigits 0
        with ⟨bytes, hRead, hWritten⟩
      have hCount : 2 * bytes.length = text.utf8ByteSize := by
        rw [← Hex.length_encode, hWritten, List.length_map,
          hSize]
      have hNot : bytes.length ≠ 32 := by
        omega
      have hHalf : bytes.length = text.utf8ByteSize / 2 := by
        omega
      rw [parse, Hex.decode_of_even hEven, hRead, ← hHalf]
      exact dif_neg hNot

/- 64 bytes that are digits make a numeral. -/
theorem isNumeral_of_bytes
    (hDigits : ∀ d ∈ text.toUTF8.toList,
      Hex.IsDigit (Hex.character d))
    (hLength : text.utf8ByteSize = 64) :
    Hex.IsNumeral text 64 := by
  have hCodes :
      (text.toUTF8.toList.map Hex.character).map
        Char.toUInt8 = text.toUTF8.toList := by
    rw [List.map_map]
    exact (List.map_congr_left (fun d _ =>
      Hex.toUInt8_character d)).trans (List.map_id _)
  -- Digits are one byte each, so the bytes are the text.
  have hText : text =
      String.ofList (text.toUTF8.toList.map Hex.character) :=
    Text.eq_ofList_of_bytes
      (List.forall_mem_map.mpr
        (fun d hd => (hDigits d hd).utf8Size))
      hCodes.symm
  constructor
  · rw [hText, String.length_ofList, List.length_map,
      Text.length_bytes, hLength]
  · rw [hText, String.toList_ofList]
    exact List.forall_mem_map.mpr hDigits

/- A text is a numeral of 64 digits or has a fault. -/
theorem isNumeral_or_faultIn (text : String) :
    Hex.IsNumeral text 64 ∨ ∃ e, FaultIn text e := by
  by_cases hOdd : text.utf8ByteSize % 2 = 1
  · exact .inr ⟨_, .oddLength hOdd⟩
  have hEven : text.utf8ByteSize % 2 = 0 := by
    omega
  rcases Hex.digits_or_fault text.toUTF8.toList with
    hDigits | ⟨front, b, back, hBytes, hFront, hFault⟩
  · by_cases hLength : text.utf8ByteSize = 64
    · exact .inl (isNumeral_of_bytes hDigits hLength)
    · exact .inr ⟨_, .invalidLength hEven hDigits hLength⟩
  · exact .inr ⟨_, .invalidDigit hEven hBytes hFront hFault⟩

/- A text is refused exactly for its fault. -/
theorem parse_eq_error_iff {e : ChecksumError} :
    parse text = .error e ↔ FaultIn text e := by
  constructor
  · intro hError
    rcases isNumeral_or_faultIn text with
      hNumeral | ⟨fault, hFault⟩
    · rcases exists_parse_of_isNumeral hNumeral with
        ⟨c, hRead, _⟩
      cases hRead.symm.trans hError
    · cases (parse_of_faultIn hFault).symm.trans hError
      exact hFault
  · exact parse_of_faultIn

/- A text is read exactly if it is a numeral of 64 digits. -/
theorem exists_parse_iff :
    (∃ c, parse text = .ok c) ↔ Hex.IsNumeral text 64 := by
  constructor
  · rintro ⟨c, hRead⟩
    refine (isNumeral_or_faultIn text).resolve_right ?_
    rintro ⟨fault, hFault⟩
    cases (parse_of_faultIn hFault).symm.trans hRead
  · intro hNumeral
    rcases exists_parse_of_isNumeral hNumeral with
      ⟨c, hRead, _⟩
    exact ⟨c, hRead⟩

/- What is read is shown as the text in lower case. -/
theorem parse_eq_ok_iff {c : Checksum} :
    parse text = .ok c ↔
      Hex.IsNumeral text 64 ∧ c.display = text.toLower := by
  constructor
  · intro hRead
    have hNumeral := exists_parse_iff.mp ⟨c, hRead⟩
    rcases exists_parse_of_isNumeral hNumeral with
      ⟨d, hSame, hShown⟩
    cases hSame.symm.trans hRead
    exact ⟨hNumeral, hShown⟩
  · rintro ⟨hNumeral, hLower⟩
    rcases exists_parse_of_isNumeral hNumeral with
      ⟨d, hRead, hShown⟩
    rw [hRead, eq_of_display (hShown.trans hLower.symm)]

------------------------------------------------------------
-- Shown And Read Again
------------------------------------------------------------

/-
  A checksum is shown by the two digits in base sixteen of
  each of its bytes, the short form is the beginning of this,
  and reading it gives the checksum back.  A text is read if
  it is a numeral of 64 digits of either case; the checksum is
  then shown as the text in lower case.  Every other text is
  refused for its fault.
-/
theorem shown_and_read_again :
    (∀ c : Checksum,
      parse c.display = .ok c ∧
        c.short.toList = c.display.toList.take 16 ∧
          c.display.toList = c.bytes.flatMap (fun b =>
            (Nat.toDigits 16 (256 + b.toNat)).tail)) ∧
    ∀ text : String,
      ((∃ c, parse text = .ok c) ↔ Hex.IsNumeral text 64) ∧
        (∀ c, parse text = .ok c ↔
          Hex.IsNumeral text 64 ∧
            c.display = text.toLower) ∧
          ∀ e, parse text = .error e ↔ FaultIn text e := by
  constructor
  · intro c
    refine ⟨parse_display c, toList_short c, ?_⟩
    rw [display, String.toList_ofList]
    exact List.flatMap_congr (fun b _ => Hex.encodeByte_eq b)
  · intro text
    exact ⟨exists_parse_iff, fun c => parse_eq_ok_iff,
      fun e => parse_eq_error_iff⟩

end Checksum

end Palimpsest
