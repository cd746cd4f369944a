import Palimpsest.Digest.Blake3
import Palimpsest.Digest.Hex

/-
  This file defines checksums: the digests of written texts.

  A checksum is 32 bytes.  It is shown as 64 hexadecimal
  digits, and shown short by the first 16 of them.

  Key definitions include:
    * `Palimpsest.Checksum`
    * `Palimpsest.Checksum.ofBytes`
    * `Palimpsest.Checksum.ofText`
    * `Palimpsest.ChecksumError`
    * `Palimpsest.Checksum.ofList`
    * `Palimpsest.Checksum.parse`
    * `Palimpsest.Checksum.display`
    * `Palimpsest.Checksum.short`
-/

namespace Palimpsest

------------------------------------------------------------
-- Checksums
------------------------------------------------------------

/- A digest of 32 bytes. -/
structure Checksum where
  bytes : List UInt8
  length_bytes : bytes.length = 32
deriving DecidableEq

/- The ways in which bytes or a text can fail to be a checksum. -/
inductive ChecksumError where
| invalidLength (actual : Nat)
| hexDecode (cause : Hex.Error)
deriving DecidableEq, Repr

/- The message for a refused checksum. -/
def ChecksumError.message : ChecksumError → String
| .invalidLength actual =>
    "invalid hash length: expected 32, got " ++ toString actual
| .hexDecode cause =>
    "hex decode error: " ++ cause.message

namespace Checksum

/- Two checksums with the same bytes are equal. -/
@[ext]
theorem ext
    {first second : Checksum}
    (h : first.bytes = second.bytes) :
    first = second := by
  cases first
  cases second
  cases h
  rfl

/- The checksum of a list of bytes. -/
def ofBytes (bytes : List UInt8) : Checksum :=
  ⟨Blake3.hash bytes, Blake3.length_hash bytes⟩

/- The checksum of a text. -/
def ofText (text : String) : Checksum :=
  ofBytes text.toUTF8.toList

/- The checksum that consists of the given bytes. -/
def ofList
    (bytes : List UInt8) : Except ChecksumError Checksum :=
  if h : bytes.length = 32 then
    .ok ⟨bytes, h⟩
  else
    .error (.invalidLength bytes.length)

/- The checksum with the given digits. -/
def parse (text : String) : Except ChecksumError Checksum :=
  match Hex.decode text.toUTF8.toList with
  | .error cause => .error (.hexDecode cause)
  | .ok bytes => ofList bytes

/- All digits of a checksum. -/
def display (c : Checksum) : String :=
  String.ofList (Hex.encode c.bytes)

/- The digits of the first eight bytes. -/
def short (c : Checksum) : String :=
  String.ofList (Hex.encode (c.bytes.take 8))

end Checksum

end Palimpsest
