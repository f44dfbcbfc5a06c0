import DocumentMath.Text.Printable

/-!
# Texts in quotation marks

A text is shown in double quotation marks, with escapes for the characters that would not be seen or
would be misread: the quotation mark and the backslash, the tab and the line ends, and every
character that is unprintable or extends the one in front of it, which is written as its code point
in hexadecimal digits.
-/

namespace DocumentMath.Text

/-- The code point of a character in braces. -/
def codePoint (c : Char) : List Char :=
  "\\u\x7b".toList ++ Nat.toDigits 16 c.toNat ++ ['\x7d']

/-- A character as it is shown between quotation marks. -/
def quotedChar (c : Char) : List Char :=
  if c = '\x00' then ['\\', '0']
  else if c = '\t' then ['\\', 't']
  else if c = '\n' then ['\\', 'n']
  else if c = '\r' then ['\\', 'r']
  else if c = '\x22' ∨ c = '\\' then ['\\', c]
  else if isExtending c || !isPrintable c then codePoint c
  else [c]

/-- A text in quotation marks. -/
def quoted (cs : List Char) : List Char :=
  '\x22' :: (cs.flatMap quotedChar ++ ['\x22'])

end DocumentMath.Text
