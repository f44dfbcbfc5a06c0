import DocumentMath.Error
import DocumentMath.Json.Value

/-!
# Reading JSON

A reader takes something off the front of a text and returns what is left, or fails: the text is
malformed, or it ends too early. Values nest at most `maxDepth` deep. As for expressions, the reader
for values is defined by recursion on the number of levels that are left, and lists of elements and
of members are read with as many steps as there are characters.

A value that is not wanted can be skipped. Skipping is more lenient than reading: it goes to any
depth, takes escapes that stand for no character, and does not mind numbers that are too large.
-/

namespace DocumentMath.Json

/-- How deep arrays and objects may nest. -/
def maxDepth : Nat := 127

/-- A reader takes a value off the front of a text. -/
abbrev Reader (α : Type) := List Char → Except JsonError (α × List Char)

/-- Fails at the front of a text: it is malformed, or it ends here. -/
def unexpected {α : Type} : List Char → Except JsonError α
  | [] => .error .incomplete
  | _ => .error .malformed

/-- The text without the blanks of JSON at its start. -/
def skipBlanks (cs : List Char) : List Char :=
  cs.dropWhile fun c ↦ c == ' ' || c == '\n' || c == '\t' || c == '\r'

/-- Takes the given characters off the text. -/
def expect : (lead : List Char) → List Char → Except JsonError (List Char)
  | [], cs => .ok cs
  | l :: lead, c :: cs => if l = c then expect lead cs else .error .malformed
  | _ :: _, [] => .error .incomplete

/-! ### Texts -/

/-- The number of a hexadecimal digit. -/
def hexValue? (c : Char) : Option Nat :=
  if '0' ≤ c ∧ c ≤ '9' then some (c.toNat - 48)
  else if 'a' ≤ c ∧ c ≤ 'f' then some (c.toNat - 87)
  else if 'A' ≤ c ∧ c ≤ 'F' then some (c.toNat - 55)
  else none

/-- Four hexadecimal digits. The text ends too early if fewer than four bytes are left of it. -/
def hexQuad : Reader Nat
  | a :: b :: c :: d :: cs =>
    match hexValue? a, hexValue? b, hexValue? c, hexValue? d with
    | some a, some b, some c, some d => .ok (((a * 16 + b) * 16 + c) * 16 + d, cs)
    | _, _, _, _ => .error .malformed
  | cs => .error (if 4 ≤ Text.utf8Length cs then .malformed else .incomplete)

/-- Whether a number is the first half of a surrogate pair. -/
def isHighSurrogate (n : Nat) : Bool :=
  0xD800 ≤ n && n ≤ 0xDBFF

/-- Whether a number is the second half of a surrogate pair. -/
def isLowSurrogate (n : Nat) : Bool :=
  0xDC00 ≤ n && n ≤ 0xDFFF

/-- The character of a simple escape. -/
def simpleEscape? : Char → Option Char
  | '\x22' => some '\x22'
  | '\\' => some '\\'
  | '/' => some '/'
  | 'b' => some '\x08'
  | 'f' => some '\x0C'
  | 'n' => some '\n'
  | 'r' => some '\r'
  | 't' => some '\t'
  | _ => none

/-- The character of an escaped code point; two halves of a surrogate pair stand for one character,
and half a pair for none. -/
def codePoint : Reader Char := fun cs ↦ do
  let (n, rest) ← hexQuad cs
  if isLowSurrogate n then .error .malformed
  else if isHighSurrogate n then
    match rest with
    | '\\' :: 'u' :: rest =>
      let (low, rest) ← hexQuad rest
      if isLowSurrogate low then
        .ok (Char.ofNat (0x10000 + (n - 0xD800) * 0x400 + (low - 0xDC00)), rest)
      else .error .malformed
    | [] | ['\\'] => .error .incomplete
    | _ => .error .malformed
  else .ok (Char.ofNat n, rest)

/-- A code point whose escape is skipped: four hexadecimal digits. -/
def skippedCodePoint : Reader Char := fun cs ↦ do
  let (_, rest) ← hexQuad cs
  .ok (' ', rest)

/-- The rest of a text after its opening quotation mark, in at most `steps` steps. Escaped code
points are read by `point`. -/
def textRest (point : Reader Char) : (steps : Nat) → Reader (List Char)
  | 0, _ => .error .incomplete
  | _, [] => .error .incomplete
  | steps + 1, c :: cs =>
    if c = '\x22' then .ok ([], cs)
    else if c = '\\' then
      match cs with
      | [] => .error .incomplete
      | 'u' :: cs => do
        let (d, rest) ← point cs
        let (text, rest) ← textRest point steps rest
        .ok (d :: text, rest)
      | e :: cs =>
        match simpleEscape? e with
        | none => .error .malformed
        | some d => do
          let (text, rest) ← textRest point steps cs
          .ok (d :: text, rest)
    else if c.toNat < 0x20 then .error .malformed
    else do
      let (text, rest) ← textRest point steps cs
      .ok (c :: text, rest)

/-- A text after its opening quotation mark. -/
def text : Reader String := fun cs ↦ do
  let (s, rest) ← textRest codePoint cs.length cs
  .ok (String.ofList s, rest)

/-- Skips a text after its opening quotation mark. -/
def skipText (cs : List Char) : Except JsonError (List Char) :=
  (textRest skippedCodePoint cs.length cs).map (·.2)

/-! ### Numbers -/

/-- Whether a character is a decimal digit. -/
def isDigit (c : Char) : Bool :=
  '0' ≤ c && c ≤ '9'

/-- The parts of a number: whether it is negative, its whole digits, its places after the point and
its exponent, each of the last two if it is written. -/
structure NumberParts where
  negative : Bool
  whole : List Char
  places? : Option (List Char)
  exponent? : Option (Bool × List Char)
  deriving DecidableEq, Repr

/-- One or more digits. -/
def digits : Reader (List Char) := fun cs ↦
  if (cs.takeWhile isDigit).isEmpty then unexpected cs
  else .ok (cs.takeWhile isDigit, cs.dropWhile isDigit)

/-- The whole digits of a number; a zero in front of another digit is not allowed. -/
def wholeDigits : Reader (List Char)
  | '0' :: cs => if (cs.head?.map isDigit).getD false then .error .malformed else .ok (['0'], cs)
  | cs => digits cs

/-- The places of a number, if a point comes next. -/
def places : Reader (Option (List Char))
  | '.' :: cs => (digits cs).map fun (ds, rest) ↦ (some ds, rest)
  | cs => .ok (none, cs)

/-- The exponent of a number, if one comes next; true for a negative one. -/
def exponent : Reader (Option (Bool × List Char))
  | c :: cs =>
    if c = 'e' ∨ c = 'E' then
      match cs with
      | '-' :: cs => (digits cs).map fun (ds, rest) ↦ (some (true, ds), rest)
      | '+' :: cs => (digits cs).map fun (ds, rest) ↦ (some (false, ds), rest)
      | cs => (digits cs).map fun (ds, rest) ↦ (some (false, ds), rest)
    else .ok (none, c :: cs)
  | [] => .ok (none, [])

/-- The parts of the number at the start of a text. -/
def numberParts : Reader NumberParts := fun cs ↦ do
  let (negative, cs) :=
    match cs with
    | '-' :: cs => (true, cs)
    | cs => (false, cs)
  let (whole, cs) ← wholeDigits cs
  let (places?, cs) ← places cs
  let (exponent?, cs) ← exponent cs
  .ok (⟨negative, whole, places?, exponent?⟩, cs)

/-- The number that digits write. -/
def natOfDigits (ds : List Char) : Nat :=
  ds.foldl (fun n c ↦ n * 10 + (c.toNat - 48)) 0

/-- The bound below which the digits of a number are kept together. -/
def significandBound : Nat := Nat.pow 2 64

/-- Appends digits to a significand as long as it stays below the bound; also how many of them are
left over. -/
def appendDigits (significand : Nat) : List Char → Nat × Nat
  | [] => (significand, 0)
  | d :: ds =>
    let next := significand * 10 + (d.toNat - 48)
    if next < significandBound then appendDigits next ds else (significand, ds.length + 1)

namespace NumberParts

/-- The exponent as it is written. -/
def writtenExponent (p : NumberParts) : Int :=
  match p.exponent? with
  | some (true, ds) => -(natOfDigits ds : Int)
  | some (false, ds) => natOfDigits ds
  | none => 0

/-- The absolute value as a significand times a power of ten. Whole digits that are left over count
as zeros, and places that are left over do not count. -/
def scaled (p : NumberParts) : Nat × Int :=
  let places := p.places?.getD []
  let (significand, zeros) := appendDigits 0 p.whole
  let (significand, dropped) := appendDigits significand places
  (significand, zeros - (places.length - dropped : Nat) + p.writtenExponent)

/-- The greatest power of ten among floating-point numbers. -/
def greatestPower : Int := 308

/-- Whether the absolute value of a number is beyond the range of floating-point numbers. The
significand and the power of ten are rounded each by itself before they are multiplied, so just
below the end of the range the digits count that do not fit into one floating-point number. -/
def isHuge (p : NumberParts) : Bool :=
  let (significand, exponent) := p.scaled
  significand != 0 &&
    (greatestPower < exponent ||
      0 ≤ exponent &&
        ((UInt64.ofNat significand).toFloat * Float.ofScientific 1 false exponent.toNat).isInf)

/-- The value of a number, unless it is beyond the range of floating-point numbers. -/
def value? (p : NumberParts) : Option Json :=
  match p.negative, p.places?, p.exponent? with
  | false, none, none =>
    let n := natOfDigits p.whole
    if n < significandBound then some (.natural n)
    else if p.isHuge then none
    else some .number
  | _, _, _ => if p.isHuge then none else some .number

end NumberParts

/-- The number at the start of a text. -/
def numberValue : Reader Json := fun cs ↦ do
  let (parts, rest) ← numberParts cs
  match parts.value? with
  | some j => .ok (j, rest)
  | none => .error .malformed

/-! ### Values -/

/-- The value at the start of a text that is neither an array nor an object. -/
def scalarValue : Reader Json
  | [] => .error .incomplete
  | c :: cs =>
    if c = 'n' then (expect "ull".toList cs).map (.null, ·)
    else if c = 't' then (expect "rue".toList cs).map (.bool true, ·)
    else if c = 'f' then (expect "alse".toList cs).map (.bool false, ·)
    else if c = '\x22' then (text cs).map fun (s, rest) ↦ (.string s, rest)
    else if c = '-' ∨ isDigit c then numberValue (c :: cs)
    else .error .malformed

/-- Whether another element or member comes before the closing bracket, and the text from there on;
`first` says that none came yet. -/
def more (closing : Char) (first : Bool) (cs : List Char) : Except JsonError (Bool × List Char) :=
  match skipBlanks cs with
  | [] => .error .incomplete
  | c :: rest =>
    if c = closing then .ok (false, rest)
    else if first then .ok (true, c :: rest)
    else if c = ',' then
      match skipBlanks rest with
      | [] => .error .incomplete
      | d :: rest => if d = closing then .error .malformed else .ok (true, d :: rest)
    else .error .malformed

/-- At most `steps` elements of an array, up to its closing bracket. -/
def elements {α : Type} (element : Reader α) : (steps : Nat) → (first : Bool) → Reader (List α)
  | 0, _, _ => .error .incomplete
  | steps + 1, first, cs => do
    let (another, cs) ← more ']' first cs
    if another then
      let (a, cs) ← element cs
      let (as, cs) ← elements element steps false cs
      .ok (a :: as, cs)
    else .ok ([], cs)

/-- The name of a member. -/
def memberName : Reader String
  | '\x22' :: cs => text cs
  | cs => unexpected cs

/-- Takes the colon after a name off the text. -/
def colon (cs : List Char) : Except JsonError (List Char) :=
  match skipBlanks cs with
  | ':' :: cs => .ok cs
  | cs => unexpected cs

/-- At most `steps` members of an object, up to its closing brace. -/
def members {α : Type} (value : Reader α) :
    (steps : Nat) → (first : Bool) → Reader (List (String × α))
  | 0, _, _ => .error .incomplete
  | steps + 1, first, cs => do
    let (another, cs) ← more '\x7d' first cs
    if another then
      let (name, cs) ← memberName cs
      let (a, cs) ← value (← colon cs)
      let (as, cs) ← members value steps false cs
      .ok ((name, a) :: as, cs)
    else .ok ([], cs)

/-- A value, in which arrays and objects may nest as many levels deep. -/
def value : (levels : Nat) → Reader Json
  | levels, cs =>
    match skipBlanks cs, levels with
    | '[' :: _, 0 => .error .malformed
    | '\x7b' :: _, 0 => .error .malformed
    | '[' :: cs, levels + 1 =>
      (elements (value levels) (cs.length + 1) true cs).map fun (js, rest) ↦ (.array js, rest)
    | '\x7b' :: cs, levels + 1 =>
      (members (value levels) (cs.length + 1) true cs).map fun (ms, rest) ↦ (.object ms, rest)
    | cs, _ => scalarValue cs

/-! ### Skipping -/

/-- Skips the name of a member, with the colon after it. -/
def skipName : List Char → Except JsonError (List Char)
  | '\x22' :: cs => do colon (← skipText cs)
  | cs => unexpected cs

/-- Skips a number; one that is cut off at the end of the text is malformed. -/
def skipNumber (cs : List Char) : Except JsonError (List Char) :=
  match numberParts cs with
  | .ok (_, rest) => .ok rest
  | .error _ => .error .malformed

/-- Skips the value at the start of a text that is neither an array nor an object. -/
def skipScalar (cs : List Char) : Except JsonError (List Char) :=
  match cs with
  | '\x22' :: cs => skipText cs
  | c :: _ => if c = '-' ∨ isDigit c then skipNumber cs else (scalarValue cs).map (·.2)
  | [] => .error .incomplete

/-- Skips the start of an element or of a member: nothing, or the name. -/
def skipLead (closing : Char) (cs : List Char) : Except JsonError (List Char) :=
  if closing = '\x7d' then skipName cs else .ok cs

mutual

/-- Skips a value in at most `steps` steps, and then the rest of everything that encloses it:
`enclosing` holds the closing brackets that are still to come, innermost first. -/
def skipFrom : (steps : Nat) → (enclosing : List Char) → List Char → Except JsonError (List Char)
  | 0, _, _ => .error .incomplete
  | steps + 1, enclosing, cs =>
    match skipBlanks cs with
    | '[' :: cs => skipMore steps true (']' :: enclosing) cs
    | '\x7b' :: cs => skipMore steps true ('\x7d' :: enclosing) cs
    | cs => do skipMore steps false enclosing (← skipScalar cs)

/-- Skips what encloses a value that has been skipped. -/
def skipMore : (steps : Nat) → (first : Bool) → (enclosing : List Char) → List Char →
    Except JsonError (List Char)
  | _, _, [], cs => .ok cs
  | 0, _, _, _ => .error .incomplete
  | steps + 1, first, closing :: enclosing, cs => do
    let (another, cs) ← more closing first cs
    if another then skipFrom steps (closing :: enclosing) (← skipLead closing cs)
    else skipMore steps false enclosing cs

end

/-- Skips a value. -/
def skip (cs : List Char) : Except JsonError (List Char) :=
  skipFrom (2 * cs.length + 2) [] cs

end DocumentMath.Json
