/-!
# The shortest decimal of a number

A floating-point number is shown with the fewest digits that read back as that number, without an
exponent and without a point when it is whole.

The number is taken apart into m · 2^q. Between them, its neighbours leave an interval of reals that
round to it, ends included when m is even. For one digit, two digits and so on, the decimals with
that many digits form a grid, and the two grid points around the number are tested in exact
arithmetic: the first grid with a point in the interval wins, and of two points the nearer one.
-/

namespace DocumentMath

/-- A decimal: digits times a power of ten. -/
structure Decimal where
  digits : Nat
  exponent : Int
  deriving DecidableEq, Repr

/-- A positive fraction. -/
structure Ratio where
  numerator : Nat
  denominator : Nat
  deriving DecidableEq, Repr

namespace Ratio

/-- The fraction n · 2^q. -/
def ofBinary (n : Nat) (q : Int) : Ratio :=
  if 0 ≤ q then ⟨n * Nat.pow 2 q.toNat, 1⟩ else ⟨n, Nat.pow 2 (-q).toNat⟩

/-- The fraction of a decimal. -/
def ofDecimal (d : Decimal) : Ratio :=
  if 0 ≤ d.exponent then ⟨d.digits * Nat.pow 10 d.exponent.toNat, 1⟩
  else ⟨d.digits, Nat.pow 10 (-d.exponent).toNat⟩

/-- Whether one fraction is below another. -/
def lt (a b : Ratio) : Bool :=
  a.numerator * b.denominator < b.numerator * a.denominator

/-- Whether one fraction is at most another. -/
def le (a b : Ratio) : Bool :=
  a.numerator * b.denominator ≤ b.numerator * a.denominator

/-- The whole part of the fraction divided by 10^e. -/
def scaledFloor (a : Ratio) (e : Int) : Nat :=
  if 0 ≤ e then a.numerator / (a.denominator * Nat.pow 10 e.toNat)
  else a.numerator * Nat.pow 10 (-e).toNat / a.denominator

/-- The number of decimal digits of a natural number. -/
def digitCount (n : Nat) : Nat :=
  (Nat.toDigits 10 n).length

/-- The least k for which the fraction is below 10^k. -/
def decade (a : Ratio) : Int :=
  if a.denominator ≤ a.numerator then digitCount (a.numerator / a.denominator)
  else 1 - (digitCount ((a.denominator - 1) / a.numerator) : Int)

end Ratio

/-- A positive number and the interval of reals that round to it. -/
structure Rounding where
  value : Ratio
  low : Ratio
  high : Ratio
  /-- Whether the ends belong to the interval. -/
  closed : Bool

namespace Rounding

/-- The highest bit of the digits of a number that is not tiny. It is not stored. -/
def hiddenBit : Nat := 4503599627370496

/-- The interval of the number m · 2^q. At a power of two the neighbour below is half as far away,
save at the bottom of the range. -/
def ofBinary (m : Nat) (q : Int) (lowest : Bool) : Rounding where
  value := .ofBinary m q
  low :=
    if m = hiddenBit && !lowest then .ofBinary (4 * m - 1) (q - 2)
    else .ofBinary (2 * m - 1) (q - 1)
  high := .ofBinary (2 * m + 1) (q - 1)
  closed := m % 2 = 0

/-- Whether a decimal rounds to the number. -/
def holds (r : Rounding) (d : Decimal) : Bool :=
  let x := Ratio.ofDecimal d
  if r.closed then r.low.le x && x.le r.high else r.low.lt x && x.lt r.high

/-- Whether the upper of two neighbouring grid points is at least as near as the lower. -/
def upperIsNearer (r : Rounding) (lower upper : Decimal) : Bool :=
  let a := Ratio.ofDecimal lower
  let b := Ratio.ofDecimal upper
  let sum : Ratio :=
    ⟨a.numerator * b.denominator + b.numerator * a.denominator, a.denominator * b.denominator * 2⟩
  sum.le r.value

/-- The decimal on the grid with `count` digits that rounds to the number, if there is one. -/
def onGrid? (r : Rounding) (count : Nat) : Option Decimal :=
  let exponent := r.value.decade - count
  let n := r.value.scaledFloor exponent
  let lower : Decimal := ⟨n, exponent⟩
  let upper : Decimal := ⟨n + 1, exponent⟩
  match r.holds lower, r.holds upper with
  | true, true => if r.upperIsNearer lower upper then some upper else some lower
  | true, false => some lower
  | false, true => some upper
  | false, false => none

/-- The shortest decimal that rounds to the number; seventeen digits are always enough. -/
def shortest (r : Rounding) : Decimal :=
  ((List.range 17).findSome? fun i ↦ r.onGrid? (i + 1)).getD ⟨0, 0⟩

end Rounding

/-- Decimal digits with a point in front of the last `places` of them; zeros at the end of the
places are dropped, and so is a point with nothing after it. -/
def Decimal.positional (digits : List Char) (places : Nat) : List Char :=
  let padded := List.replicate (places + 1 - digits.length) '0' ++ digits
  let whole := padded.take (padded.length - places)
  let fraction := ((padded.drop (padded.length - places)).reverse.dropWhile (· == '0')).reverse
  if fraction.isEmpty then whole else whole ++ '.' :: fraction

/-- A decimal without an exponent. -/
def Decimal.text (d : Decimal) : List Char :=
  if 0 ≤ d.exponent then
    Nat.toDigits 10 d.digits ++ List.replicate d.exponent.toNat '0'
  else
    positional (Nat.toDigits 10 d.digits) (-d.exponent).toNat

/-- The text of a floating-point number. -/
def floatText (x : Float) : String :=
  let bits := x.toBits.toNat
  let sign := if bits / Nat.pow 2 63 = 1 then "-" else ""
  let exponent : Nat := bits / Rounding.hiddenBit % 2048
  let fraction := bits % Rounding.hiddenBit
  if exponent = 2047 then
    if fraction = 0 then sign ++ "inf" else "NaN"
  else if exponent = 0 then
    if fraction = 0 then sign ++ "0"
    else sign ++ String.ofList (Rounding.ofBinary fraction (-1074) true).shortest.text
  else
    let m := Rounding.hiddenBit + fraction
    let r := Rounding.ofBinary m (Int.ofNat exponent - 1075) (exponent = 1)
    sign ++ String.ofList r.shortest.text

end DocumentMath
