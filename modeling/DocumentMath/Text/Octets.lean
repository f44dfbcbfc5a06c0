import DocumentMath.Text.Utf8

/-!
# Texts of octets

Programs pass on bytes that need not be the UTF-8 form of any text, and still most of what they look
at are letters and signs of ASCII. A text of octets has one character for each byte, the one whose
number the byte is. It can be read like any other text, and `ofOctets_octets` says that it gives the
bytes back.
-/

namespace DocumentMath.Text

/-- The text with a character for each byte. -/
def octets (bs : Bytes) : String :=
  String.ofList (bs.map fun b ↦ Char.ofNat b.toNat)

/-- The bytes that a text of octets stands for. -/
def ofOctets (text : String) : Bytes :=
  text.toList.map fun c ↦ UInt8.ofNat c.toNat

/-- The text with a character for each byte of the UTF-8 form of a text. -/
def toOctets (text : String) : String :=
  octets (encode text)

/-- The text whose UTF-8 form a text of octets stands for, with replacement characters for
ill-formed runs of bytes. -/
def fromOctets (text : String) : String :=
  decoded (ofOctets text)

/-- The character of a byte has the number of the byte. -/
theorem toNat_ofNat_of_byte (b : UInt8) : (Char.ofNat b.toNat).toNat = b.toNat := by
  have h : b.toNat.isValidChar := Or.inl (by have := b.toNat_lt; omega)
  rw [Char.ofNat, dif_pos h]
  rfl

theorem ofOctets_octets (bs : Bytes) : ofOctets (octets bs) = bs := by
  simp [ofOctets, octets, toNat_ofNat_of_byte, Function.comp_def]

end DocumentMath.Text
