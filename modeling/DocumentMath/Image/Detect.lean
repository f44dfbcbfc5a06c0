import DocumentMath.Image.Format
import DocumentMath.Text.Quoted
import DocumentMath.Text.Search
import DocumentMath.Text.Utf8

/-!
# Recognizing formats

What an engine returns is looked at before it is used. A raster image starts with a signature of
eight bytes. The other formats are recognized by their text: by the element it starts with, or,
behind an XML declaration, by an element in its first 256 bytes.

`check` compares the format found with the format asked for, and `size?` reads the width and the
height that the header of a raster image declares.
-/

namespace DocumentMath

/-- Why bytes are not the image they should be. -/
inductive FormatError where
  /-- No format is recognized in this many bytes, which start with these characters. -/
  | unrecognized (size : Nat) (start : List Char)
  /-- The format found is not the one asked for. -/
  | unexpected (expected found : Format)
  /-- A raster image does not start with its header. -/
  | noHeader
  deriving DecidableEq, Repr

namespace FormatError

/-- The error as a message. -/
def message : FormatError → String
  | unrecognized size start =>
    toString size ++ " bytes starting with " ++ String.ofList (Text.quoted start)
  | unexpected expected found =>
    "expected " ++ expected.label ++ ", engine produced " ++ found.label
  | noHeader => "PNG without leading IHDR chunk"

end FormatError

namespace Image

open Text (Bytes)

/-- The bytes a raster image starts with. -/
def signature : Bytes := [0x89, 0x50, 0x4E, 0x47, 0x0D, 0x0A, 0x1A, 0x0A]

/-- The name of the header of a raster image. -/
def headerName : Bytes := [0x49, 0x48, 0x44, 0x52]

/-- How many bytes are looked at as text. -/
def sniffLength : Nat := 256

/-- Whether a character is a control character. -/
def isControl (c : Char) : Bool :=
  c.toNat < 0x20 || (0x7F ≤ c.toNat && c.toNat < 0xA0)

/-- The error for bytes that are not recognized; it shows the first sixteen, with a point for each
control character. -/
def unrecognized (data : Bytes) : FormatError :=
  .unrecognized data.length
    ((Text.decode (data.take 16)).map fun c ↦ if isControl c then '.' else c)

/-- The text in which an element is looked for: without byte order marks and blanks in front. -/
def sniffedText (data : Bytes) : List Char :=
  Text.trimStart ((Text.decode (data.take sniffLength)).dropWhile (· == '\uFEFF'))

/-- Whether a text starts with an element, or with an XML declaration and has the element
somewhere. -/
def opensWith (element : String) (text : List Char) : Bool :=
  element.toList.isPrefixOf text ||
    ("<?xml".toList.isPrefixOf text && Text.occursIn element.toList text)

/-- The format of bytes. -/
def detect (data : Bytes) : Except FormatError Format :=
  if signature.isPrefixOf data then .ok .png
  else if opensWith "<svg" (sniffedText data) then .ok .svg
  else if opensWith "<math" (sniffedText data) then .ok .mathMl
  else .error (unrecognized (data.take sniffLength))

/-- Whether bytes are in the format asked for. -/
def check (expected : Format) (data : Bytes) : Except FormatError Unit :=
  match detect data with
  | .error e => .error e
  | .ok found => if found = expected then .ok () else .error (.unexpected expected found)

/-- The number that four bytes write, most significant first. -/
def bigEndian (b₀ b₁ b₂ b₃ : UInt8) : UInt32 :=
  (b₀.toUInt32 <<< 24) ||| (b₁.toUInt32 <<< 16) ||| (b₂.toUInt32 <<< 8) ||| b₃.toUInt32

/-- The four bytes of a number, most significant first. -/
def bigEndianBytes (n : UInt32) : Bytes :=
  [(n >>> 24).toUInt8, (n >>> 16).toUInt8, (n >>> 8).toUInt8, n.toUInt8]

/-- The size of the header of a raster image, up to and with the height. -/
def headerLength : Nat := 24

/-- The width and the height in pixels that a raster image declares. -/
def size? (data : Bytes) : Except FormatError (UInt32 × UInt32) :=
  if data.length < headerLength || !signature.isPrefixOf data then .error (unrecognized data)
  else if (data.drop 12).take 4 ≠ headerName then .error .noHeader
  else
    match data.drop 16 with
    | w₀ :: w₁ :: w₂ :: w₃ :: h₀ :: h₁ :: h₂ :: h₃ :: _ =>
      .ok (bigEndian w₀ w₁ w₂ w₃, bigEndian h₀ h₁ h₂ h₃)
    | _ => .error (unrecognized data)

/-- A length in pixels as points, at a resolution in pixels per inch; there are 72 points to the
inch. Half a point is rounded up, and what exceeds the range of numbers is cut off. -/
def points (pixels : UInt32) (resolution : Float) : UInt32 :=
  (pixels.toFloat * 72.0 / resolution).round.toUInt32

end Image

end DocumentMath
