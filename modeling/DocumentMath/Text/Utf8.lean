/-!
# Reading bytes as text

Bytes that are not UTF-8 are still shown as text: each longest run of bytes that could have begun
a character, and each byte that could not, stands as one replacement character. `decodeHead` reads
the first character or ill-formed run together with the number of bytes it takes, which is never
none, and `decode` reads them one after the other.
-/

namespace DocumentMath.Text

/-- A sequence of bytes. -/
abbrev Bytes := List UInt8

/-- The UTF-8 bytes of a text. -/
def encode (s : String) : Bytes :=
  s.toUTF8.data.toList

/-- The number of bytes in the UTF-8 form of a text. -/
def utf8Length : List Char → Nat
  | [] => 0
  | c :: cs => c.utf8Size + utf8Length cs

/-- What stands for bytes that are not UTF-8. -/
def replacementChar : Char := '\uFFFD'

/-- Whether a byte can only continue a character. -/
def isContinuation (b : UInt8) : Bool :=
  0x80 ≤ b && b ≤ 0xBF

/-- The number of bytes in a character that starts with `b`, if one does. -/
def sequenceLength? (b : UInt8) : Option Nat :=
  if b < 0x80 then some 1
  else if 0xC2 ≤ b && b ≤ 0xDF then some 2
  else if 0xE0 ≤ b && b ≤ 0xEF then some 3
  else if 0xF0 ≤ b && b ≤ 0xF4 then some 4
  else none

/-- Whether `b` may come second in a character that starts with `lead`: over-long forms,
surrogates and numbers past the last character are excluded here. -/
def isSecond (lead b : UInt8) : Bool :=
  if lead == 0xE0 then 0xA0 ≤ b && b ≤ 0xBF
  else if lead == 0xED then 0x80 ≤ b && b ≤ 0x9F
  else if lead == 0xF0 then 0x90 ≤ b && b ≤ 0xBF
  else if lead == 0xF4 then 0x80 ≤ b && b ≤ 0x8F
  else isContinuation b

/-- The six low bits of a continuation byte. -/
def payloadBits (b : UInt8) : Nat :=
  b.toNat % 64

/-- The first character of the bytes after `lead`, and how many of those bytes belong to it. -/
def decodeHead (lead : UInt8) (rest : Bytes) : Char × Nat :=
  match sequenceLength? lead, rest with
  | some 1, _ => (Char.ofNat lead.toNat, 0)
  | some 2, b :: _ =>
    if isSecond lead b then (Char.ofNat (lead.toNat % 32 * 64 + payloadBits b), 1)
    else (replacementChar, 0)
  | some 3, b :: rest =>
    if isSecond lead b then
      match rest with
      | c :: _ =>
        if isContinuation c then
          (Char.ofNat ((lead.toNat % 16 * 64 + payloadBits b) * 64 + payloadBits c), 2)
        else (replacementChar, 1)
      | [] => (replacementChar, 1)
    else (replacementChar, 0)
  | some 4, b :: rest =>
    if isSecond lead b then
      match rest with
      | c :: rest =>
        if isContinuation c then
          match rest with
          | d :: _ =>
            if isContinuation d then
              (Char.ofNat
                (((lead.toNat % 8 * 64 + payloadBits b) * 64 + payloadBits c) * 64
                  + payloadBits d), 3)
            else (replacementChar, 2)
          | [] => (replacementChar, 2)
        else (replacementChar, 1)
      | [] => (replacementChar, 1)
    else (replacementChar, 0)
  | _, _ => (replacementChar, 0)

/-- Decodes the bytes, once `skip` more of them have been passed over. -/
def decodeFrom : (skip : Nat) → Bytes → List Char
  | _, [] => []
  | skip + 1, _ :: bs => decodeFrom skip bs
  | 0, b :: bs => (decodeHead b bs).1 :: decodeFrom (decodeHead b bs).2 bs

/-- The characters of the bytes, with a replacement character for each ill-formed run. -/
def decode (bs : Bytes) : List Char :=
  decodeFrom 0 bs

/-- The bytes as a string, with a replacement character for each ill-formed run. -/
def decoded (bs : Bytes) : String :=
  String.ofList (decode bs)

/-- The string whose UTF-8 bytes these are, if there is one. -/
def decodeStrict? (bs : Bytes) : Option String :=
  String.fromUTF8? (ByteArray.mk bs.toArray)

end DocumentMath.Text
