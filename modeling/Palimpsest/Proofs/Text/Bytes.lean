import Mathlib.Data.List.Basic

/-
  The bytes of a text.

  A text is stored as the encodings of its characters, one
  after another; a character with a code below 128 is one
  byte.  The bytes of a text determine the text.

  Main declarations:
    * `Text.bytes_eq_flatMap`
    * `Text.bytes_ofList`
    * `Text.eq_ofList_of_bytes`
-/

namespace Palimpsest

namespace Text

------------------------------------------------------------
-- Arrays Of Bytes As Lists
------------------------------------------------------------

/- Listing an array from a place puts its rest at the end. -/
theorem toList_loop_eq
    (bytes : ByteArray)
    (i : Nat)
    (listed : List UInt8) :
    ByteArray.toList.loop bytes i listed =
      listed.reverse ++ bytes.data.toList.drop i := by
  fun_induction ByteArray.toList.loop bytes i listed with
  | case1 i listed hMore ih =>
      have hByte :
          bytes.data.toList.drop i =
            bytes.get! i :: bytes.data.toList.drop (i + 1) := by
        rw [List.drop_eq_getElem_cons (by simpa using hMore)]
        simp [ByteArray.get!, hMore]
      rw [ih, hByte, List.reverse_cons, List.append_assoc,
        List.singleton_append]
  | case2 i listed hMore =>
      have hNone : bytes.data.toList.drop i = [] :=
        List.drop_eq_nil_of_le
          (by simpa using Nat.le_of_not_lt hMore)
      rw [hNone, List.append_nil]

/- The bytes of an array are listed in order. -/
theorem toList_eq_toList_data (bytes : ByteArray) :
    bytes.toList = bytes.data.toList := by
  rw [ByteArray.toList, toList_loop_eq]
  rfl

------------------------------------------------------------
-- The Bytes Of A Text
------------------------------------------------------------

/- A text is stored character by character. -/
theorem bytes_eq_flatMap (text : String) :
    text.toUTF8.toList =
      text.toList.flatMap String.utf8EncodeChar := by
  rw [toList_eq_toList_data]
  change text.toByteArray.data.toList = _
  rw [← String.utf8Encode_toList, List.utf8Encode,
    List.toList_data_toByteArray]

/- A text has as many bytes as its size says. -/
theorem length_bytes (text : String) :
    text.toUTF8.toList.length = text.utf8ByteSize := by
  rw [toList_eq_toList_data, Array.length_toList]
  exact String.size_toByteArray

/- Characters of one byte each are stored as their codes. -/
theorem bytes_ofList
    {cs : List Char}
    (hSmall : ∀ c ∈ cs, c.utf8Size = 1) :
    (String.ofList cs).toUTF8.toList =
      cs.map Char.toUInt8 := by
  rw [bytes_eq_flatMap, String.toList_ofList,
    List.map_eq_flatMap]
  apply List.flatMap_congr
  intro c hc
  exact String.utf8EncodeChar_eq_singleton (hSmall c hc)

/- A text with the bytes of such characters consists of them. -/
theorem eq_ofList_of_bytes
    {text : String}
    {cs : List Char}
    (hSmall : ∀ c ∈ cs, c.utf8Size = 1)
    (hBytes : text.toUTF8.toList = cs.map Char.toUInt8) :
    text = String.ofList cs := by
  rw [← bytes_ofList hSmall, toList_eq_toList_data,
    toList_eq_toList_data, Array.toList_inj] at hBytes
  exact String.toByteArray_inj.mp (ByteArray.ext hBytes)

end Text

end Palimpsest
