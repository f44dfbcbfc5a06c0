/-!
# Names in messages

A program names a file in a message as one would write it in a shell. A plain name stands as it is.
Any other one stands in single quotation marks, or in double ones if nothing but an apostrophe asks
for marks; what cannot be shown is written as an escape of its own, between the parts that can.
-/

namespace DocumentMath.QuotedName

/-- Characters that mean something to a shell. -/
def signs : List Char := "!\"$&()*;<=>?[\\^\x60|".toList

/-- Whether a character is shown: blanks are, all other ones outside of ASCII and controls are
not. -/
def isShown (c : Char) : Bool :=
  ' ' ≤ c && c ≤ '~'

/-- Whether a character needs marks wherever it stands. -/
def needsMarks (c : Char) : Bool :=
  !isShown c || c == ' ' || c == '\'' || signs.contains c

/-- Whether a name stands without marks. -/
def isPlain (cs : List Char) : Bool :=
  !cs.isEmpty && !cs.any needsMarks && cs.head? != some '#' && cs.head? != some '~' &&
    cs != ['\x7b'] && cs != ['\x7d']

/-- Whether a name may stand in double marks, which it does for an apostrophe. -/
def suitsDoubleMarks (cs : List Char) : Bool :=
  cs.contains '\'' && cs.all fun c ↦ isShown c && !signs.contains c

/-- The letter of a control character in an escape. -/
def controlLetter? (c : Char) : Option Char :=
  [('\x07', 'a'), ('\x08', 'b'), ('\t', 't'), ('\n', 'n'), ('\x0b', 'v'), ('\x0c', 'f'),
    ('\r', 'r')].lookup c

/-- A character that cannot be shown, as an escape. -/
def escape (c : Char) : List Char :=
  match controlLetter? c with
  | some letter => ['\\', letter]
  | none => '\\' :: (Nat.toDigits 8 c.toNat).leftpad 3 '0'

/-- The characters of a name behind an opening mark; `escaping` tells whether it is that of an
escape. -/
def inSingleMarks : (escaping : Bool) → List Char → List Char
  | _, [] => ['\'']
  | escaping, c :: cs =>
    if !isShown c then
      (if escaping then [] else "'$'".toList) ++ escape c ++ inSingleMarks true cs
    else if c = '\'' then "'\\''".toList ++ inSingleMarks false cs
    else (if escaping then "''".toList else []) ++ c :: inSingleMarks false cs

/-- A name in single marks. -/
def inMarks (cs : List Char) : List Char :=
  '\'' :: inSingleMarks false cs

/-- A name as a message shows it. Marks may be there always. -/
def shown (always : Bool) (name : String) : String :=
  let cs := name.toList
  if isPlain cs && !always then name
  else if suitsDoubleMarks cs then "\"" ++ name ++ "\""
  else String.ofList (inMarks cs)

end DocumentMath.QuotedName
