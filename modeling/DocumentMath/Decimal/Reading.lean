/-!
# Reading a number

A number is an optional sign and then a decimal, with or without a point and an exponent, or one of
the words `inf`, `infinity` and `nan` in any case. A decimal has a digit in front of the point or
after it. `readFloat?` takes the whole text or nothing, and rounds to the nearest floating-point
number. `floatAt?` takes what it can of the start of a text, where a number may be in base sixteen
too.
-/

namespace DocumentMath.Decimal

/-- Whether a character is a decimal digit. -/
def isDigit (c : Char) : Bool :=
  '0' ≤ c && c ≤ '9'

/-- The number that digits write. -/
def natOfDigits (digits : List Char) : Nat :=
  digits.foldl (fun n c ↦ n * 10 + (c.toNat - 48)) 0

/-- A letter of ASCII in lower case; any other character is kept. -/
def lowerAscii (c : Char) : Char :=
  if 'A' ≤ c ∧ c ≤ 'Z' then Char.ofNat (c.toNat + 32) else c

/-- The sign in front of a number, and the text after it; true for a minus sign. -/
def signAt : List Char → Bool × List Char
  | '-' :: cs => (true, cs)
  | '+' :: cs => (false, cs)
  | cs => (false, cs)

/-- The exponent a whole text writes; nothing stands for zero. -/
def exponent? : List Char → Option Int
  | [] => some 0
  | c :: cs =>
    if c = 'e' ∨ c = 'E' then
      let (negative, digits) := signAt cs
      if digits.isEmpty || !digits.all isDigit then none
      else some (if negative then -(natOfDigits digits : Int) else natOfDigits digits)
    else none

/-- The digits and the power of ten of an unsigned decimal. -/
def decimal? (cs : List Char) : Option (List Char × Int) :=
  let whole := cs.takeWhile isDigit
  let rest := cs.dropWhile isDigit
  let (fraction, rest) :=
    match rest with
    | '.' :: rest => (rest.takeWhile isDigit, rest.dropWhile isDigit)
    | _ => ([], rest)
  if whole.isEmpty && fraction.isEmpty then none
  else (exponent? rest).map fun e ↦ (whole ++ fraction, e - fraction.length)

/-- The number nearest to n · 10^e. Beyond the range of floating-point numbers nothing has to be
computed. -/
def nearest (n : Nat) (e : Int) : Float :=
  let magnitude := (Nat.toDigits 10 n).length + e
  if n = 0 || magnitude < -400 then 0.0
  else if 400 < magnitude then 1.0 / 0.0
  else Float.ofScientific n (e < 0) e.natAbs

/-- The unsigned number a whole text writes. -/
def unsigned? (cs : List Char) : Option Float :=
  let word := String.ofList (cs.map lowerAscii)
  if word == "inf" || word == "infinity" then some (1.0 / 0.0)
  else if word == "nan" then some (0.0 / 0.0)
  else (decimal? cs).map fun (digits, e) ↦ nearest (natOfDigits digits) e

/-- The number a whole text writes. -/
def readFloat? (text : String) : Option Float :=
  let (negative, cs) := signAt text.toList
  (unsigned? cs).map fun x ↦ if negative then -x else x

/-! ### At the start of a text -/

/-- A number that has been read from the start of a text. -/
structure FloatRead where
  value : Float
  /-- Whether the number is near a floating-point number that is neither tiny nor infinite. -/
  isInRange : Bool
  /-- What stands behind the number. -/
  rest : List Char

/-- Whether a number that is not zero has been read as one that is neither tiny nor infinite. -/
def isOrdinary (isZero : Bool) (x : Float) : Bool :=
  isZero || (!x.isInf && 2.2250738585072014e-308 ≤ x)

/-- The exponent behind a letter, and the text behind it; zero if there is none. -/
def exponentAt (letter : Char) (cs : List Char) : Int × List Char :=
  match cs with
  | c :: rest =>
    let (negative, digits) := signAt rest
    let n : Int := natOfDigits (digits.takeWhile isDigit)
    if lowerAscii c = letter ∧ digits.head?.any isDigit then
      (if negative then -n else n, digits.dropWhile isDigit)
    else (0, cs)
  | [] => (0, [])

/-- The digits at the start of a text, how many of them stand behind a point, and what stands behind
them all. -/
def pointedDigitsAt (isDigit : Char → Bool) (cs : List Char) : List Char × Nat × List Char :=
  let whole := cs.takeWhile isDigit
  match cs.dropWhile isDigit with
  | '.' :: rest =>
    let fraction := rest.takeWhile isDigit
    if whole.isEmpty && fraction.isEmpty then ([], 0, cs)
    else (whole ++ fraction, fraction.length, rest.dropWhile isDigit)
  | rest => (whole, 0, rest)

/-- Whether a character is a digit in base sixteen. -/
def isHexDigit (c : Char) : Bool :=
  isDigit c || ('a' ≤ lowerAscii c && lowerAscii c ≤ 'f')

/-- The number that digits in base sixteen write. -/
def natOfHexDigits (digits : List Char) : Nat :=
  digits.foldl (fun n c ↦
    n * 16 + if isDigit c then c.toNat - 48 else (lowerAscii c).toNat - 87) 0

/-- The unsigned number in base sixteen behind `0x`. -/
def hexadecimalAt? (cs : List Char) : Option FloatRead :=
  match pointedDigitsAt isHexDigit cs with
  | ([], _, _) => none
  | (digits, places, rest) =>
    let (e, rest) := exponentAt 'p' rest
    let n := natOfHexDigits digits
    let x := Float.scaleB (Float.ofNat n) (e - 4 * places)
    some ⟨x, isOrdinary (n == 0) x, rest⟩

/-- The unsigned decimal at the start of a text. -/
def decimalAt? (cs : List Char) : Option FloatRead :=
  match pointedDigitsAt isDigit cs with
  | ([], _, _) => none
  | (digits, places, rest) =>
    let (e, rest) := exponentAt 'e' rest
    let n := natOfDigits digits
    let x := nearest n (e - places)
    some ⟨x, isOrdinary (n == 0) x, rest⟩

/-- What may stand in parentheses behind `nan`. -/
def afterNan (cs : List Char) : List Char :=
  match cs with
  | '(' :: inner =>
    match inner.dropWhile fun c ↦ c.isAlphanum || c == '_' with
    | ')' :: rest => rest
    | _ => cs
  | _ => cs

/-- The unsigned number at the start of a text. -/
def unsignedAt? (cs : List Char) : Option FloatRead :=
  let starts (word : String) : Bool :=
    (cs.take word.length).map lowerAscii == word.toList
  if starts "infinity" then some ⟨1.0 / 0.0, true, cs.drop 8⟩
  else if starts "inf" then some ⟨1.0 / 0.0, true, cs.drop 3⟩
  else if starts "nan" then some ⟨0.0 / 0.0, true, afterNan (cs.drop 3)⟩
  else (if starts "0x" then hexadecimalAt? (cs.drop 2) else none).or (decimalAt? cs)

/-- The number at the start of a text, behind blanks. -/
def floatAt? (cs : List Char) : Option FloatRead :=
  let (negative, cs) := signAt (cs.dropWhile fun c ↦ c == ' ' || ('\t' ≤ c && c ≤ '\r'))
  (unsignedAt? cs).map fun r ↦ if negative then { r with value := -r.value } else r

end DocumentMath.Decimal
