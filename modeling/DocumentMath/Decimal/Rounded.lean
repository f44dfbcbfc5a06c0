import DocumentMath.Decimal.Shortest

/-!
# Rounded numbers

A number is written with a given number of digits: behind the point, or behind the first digit and
with an exponent, or altogether in whichever of these forms suits its size. The digits are those of
the exact value, rounded to nearest; a tie goes to the even neighbour. In base sixteen a number is
written as it is stored.
-/

namespace DocumentMath.Decimal

/-! ### Rounding -/

/-- A quotient rounded to nearest; a tie goes to the even neighbour. -/
def roundDiv (n d : Nat) : Nat :=
  let q := n / d
  let r := n % d
  if 2 * r < d ∨ 2 * r = d ∧ q % 2 = 0 then q else q + 1

/-- A fraction times a power of ten, rounded to a whole number. -/
def scaledRound (r : Ratio) (e : Int) : Nat :=
  if 0 ≤ e then roundDiv (r.numerator * Nat.pow 10 e.toNat) r.denominator
  else roundDiv r.numerator (r.denominator * Nat.pow 10 (-e).toNat)

/-! ### Taking numbers apart -/

/-- A floating-point number. -/
inductive Parts where
  | nan
  | infinite
  /-- A whole number of up to 53 bits times a power of two. -/
  | finite (m : Nat) (q : Int)
  deriving DecidableEq, Repr

/-- Whether a number is negative, and what it is without its sign. -/
def partsOf (x : Float) : Bool × Parts :=
  let bits := x.toBits.toNat
  let exponent : Nat := bits / Rounding.hiddenBit % 2048
  let fraction := bits % Rounding.hiddenBit
  (bits / 0x8000000000000000 = 1,
    if exponent = 2047 then if fraction = 0 then .infinite else .nan
    else if exponent = 0 then .finite fraction (-1074)
    else .finite (Rounding.hiddenBit + fraction) (exponent - 1075))

/-! ### Layouts -/

/-- The form in which a number is written. -/
inductive Notation where
  /-- Digits behind the point. -/
  | fixed
  /-- One digit in front of the point, and an exponent. -/
  | scientific
  /-- Either of these, whichever suits the size of the number. -/
  | general
  /-- Base sixteen, with a power of two. -/
  | hexadecimal
  deriving DecidableEq, Repr

/-- How a number without a sign is written. -/
structure Layout where
  form : Notation
  /-- How many digits there are; six unless something else is said, but all of them in base
  sixteen. -/
  precision? : Option Nat
  /-- Whether the point and zeros at the end stay. -/
  keepsAll : Bool
  deriving DecidableEq, Repr

/-- Digits with a point in front of the last `places` of them. The point may stay where it is last.
-/
def withPoint (keepsPoint : Bool) (digits : List Char) (places : Nat) : List Char :=
  let ds := digits.leftpad (places + 1) '0'
  let whole := ds.take (ds.length - places)
  let fraction := ds.drop (ds.length - places)
  if fraction.isEmpty && !keepsPoint then whole else whole ++ '.' :: fraction

/-- An exponent of at least two digits. -/
def exponentText (e : Int) : List Char :=
  'e' :: (if e < 0 then '-' else '+') :: (Nat.toDigits 10 e.natAbs).leftpad 2 '0'

/-- A text without the zeros that end it, and without a point that ends it then. -/
def withoutZeros (cs : List Char) : List Char :=
  if cs.contains '.' then
    let kept := (cs.reverse.dropWhile (· == '0'))
    (if kept.head? = some '.' then kept.drop 1 else kept).reverse
  else cs

/-- The digits of a number with `places` digits behind the first one, and its exponent. -/
def scientificDigits (r : Ratio) (places : Nat) : List Char × Int :=
  if r.numerator = 0 then (List.replicate (places + 1) '0', 0)
  else
    let e := r.decade - 1
    let n := scaledRound r (places - e)
    if n = Nat.pow 10 (places + 1) then (Nat.toDigits 10 (n / 10), e + 1)
    else (Nat.toDigits 10 n, e)

/-- A number in scientific notation, from its digits and its exponent. -/
def scientificText (keepsPoint strips : Bool) (digits : List Char) (e : Int) : List Char :=
  let mantissa := withPoint keepsPoint digits (digits.length - 1)
  (if strips then withoutZeros mantissa else mantissa) ++ exponentText e

/-- A number that is stored as m · 2^q, in base sixteen. -/
def hexadecimalText (keepsPoint : Bool) (precision? : Option Nat) (m : Nat) (q : Int) : List Char :=
  let tiny := m < Rounding.hiddenBit
  let e : Int := if m = 0 then 0 else if tiny then -1022 else q + 52
  let digits :=
    match precision? with
    | none => m
    | some p => if p < 13 then roundDiv m (Nat.pow 16 (13 - p)) else m * Nat.pow 16 (p - 13)
  let places := precision?.getD 13
  let mantissa := withPoint keepsPoint (Nat.toDigits 16 digits) places
  let mantissa := if precision?.isNone then withoutZeros mantissa else mantissa
  '0' :: 'x' :: (mantissa ++ (if keepsPoint && !mantissa.contains '.' then ['.'] else [])) ++
    'p' :: (if e < 0 then '-' else '+') :: Nat.toDigits 10 e.natAbs

/-- A number without a sign, in small letters. -/
def Layout.text (l : Layout) : Parts → List Char
  | .nan => "nan".toList
  | .infinite => "inf".toList
  | .finite m q =>
    let r := Ratio.ofBinary m q
    let precision := l.precision?.getD 6
    match l.form with
    | .fixed => withPoint l.keepsAll (Nat.toDigits 10 (scaledRound r precision)) precision
    | .scientific =>
      let (digits, e) := scientificDigits r precision
      scientificText l.keepsAll false digits e
    | .general =>
      let count := max precision 1
      let (digits, e) := scientificDigits r (count - 1)
      if e < -4 ∨ count ≤ e then scientificText l.keepsAll (!l.keepsAll) digits e
      else
        let places := (count - 1 - e).toNat
        let text := withPoint l.keepsAll (Nat.toDigits 10 (scaledRound r places)) places
        if l.keepsAll then text else withoutZeros text
    | .hexadecimal => hexadecimalText l.keepsAll l.precision? m q

end DocumentMath.Decimal
