import DocumentMath.Command.Program
import DocumentMath.Decimal.Reading
import DocumentMath.Decimal.Rounded
import DocumentMath.Shell.Letters

/-!
# Formatted output

`echo` writes its arguments between blanks, and `printf` writes a format in which directives take
arguments. In both a backslash starts an escape: a letter for a control character, or up to three
octal digits for a byte. A format is used again as long as arguments are left.
-/

namespace DocumentMath.Shell

open Text (Bytes)

/-! ### Escapes -/

/-- The byte that a letter stands for behind a backslash. -/
def escapeByte? : Char → Option UInt8
  | 'a' => some 7
  | 'b' => some 8
  | 'e' => some 27
  | 'f' => some 12
  | 'n' => some 10
  | 'r' => some 13
  | 't' => some 9
  | 'v' => some 11
  | '\\' => some 92
  | _ => none

/-- Whether a character is an octal digit. -/
def isOctal (c : Char) : Bool :=
  '0' ≤ c && c ≤ '7'

/-- The number that digits write in a base. -/
def numberOf (base : Nat) (digits : List Char) : Nat :=
  digits.foldl (fun n c ↦ n * base + (c.toNat - 48)) 0

/-- The byte of the escape whose backslash stands in front of the text, and how many characters of
the text belong to it. A backslash in front of anything else stands for itself. -/
def escapeAt (cs : List Char) : UInt8 × Nat :=
  match (cs.take 3).takeWhile isOctal with
  | d :: ds => (UInt8.ofNat (numberOf 8 (d :: ds)), (d :: ds).length)
  | [] =>
    match cs.head?.bind escapeByte? with
    | some b => (b, 1)
    | none => (92, 0)

/-- The same, but octal digits may follow a zero that does not count. -/
def argumentEscapeAt (cs : List Char) : UInt8 × Nat :=
  match cs with
  | '0' :: d :: cs =>
    if isOctal d then
      let (b, length) := escapeAt (d :: cs)
      (b, length + 1)
    else escapeAt ('0' :: d :: cs)
  | cs => escapeAt cs

/-- The bytes of an argument with escapes, once `skip` more characters have been passed over, and
whether an escape ends all output. -/
def unescapeFrom : (skip : Nat) → List Char → Bytes × Bool
  | _, [] => ([], false)
  | skip + 1, _ :: cs => unescapeFrom skip cs
  | 0, '\\' :: cs =>
    if cs.head? = some 'c' then ([], true)
    else
      let (b, length) := argumentEscapeAt cs
      let (bs, ended) := unescapeFrom length cs
      (b :: bs, ended)
  | 0, c :: cs =>
    let (bs, ended) := unescapeFrom 0 cs
    (UInt8.ofNat c.toNat :: bs, ended)

/-- The bytes of an argument with escapes, and whether an escape ends all output. -/
def unescape (text : String) : Bytes × Bool :=
  unescapeFrom 0 text.toList

/-- Writes its arguments with blanks between them, and a line feed unless the first one is `-n`. -/
def echo (arguments : List String) : Reply :=
  let (words, lineEnd) : List String × Bytes :=
    match arguments with
    | "-n" :: words => (words, [])
    | words => (words, [10])
  let (bs, ended) := unescape (" ".intercalate words)
  ⟨0, bs ++ if ended then [] else lineEnd, []⟩

/-! ### Numbers in arguments -/

/-- A number that has been read from the start of a text. -/
structure ReadNumber where
  value : Int
  /-- What stands behind the number. -/
  rest : List Char
  /-- Whether the text starts with a number. -/
  isFound : Bool

/-- The value of a digit in a base up to sixteen. -/
def digitIn? (base : Nat) (c : Char) : Option Nat :=
  let value :=
    if c.isDigit then c.toNat - 48
    else if c.isAlpha then c.toLower.toNat - 87
    else base
  if value < base then some value else none

/-- The number at the start of a text: in base sixteen behind `0x`, in base eight behind another
zero. -/
def naturalAt (cs : List Char) : ReadNumber :=
  let read (base : Nat) (cs : List Char) : ReadNumber :=
    let digits := cs.takeWhile fun c ↦ (digitIn? base c).isSome
    ⟨((digits.filterMap (digitIn? base)).foldl (fun n d ↦ n * base + d) 0 : Nat),
      cs.drop digits.length, !digits.isEmpty⟩
  match cs with
  | '0' :: x :: c :: rest =>
    if (x == 'x' || x == 'X') && (digitIn? 16 c).isSome then read 16 (c :: rest) else read 8 cs
  | '0' :: _ => read 8 cs
  | _ => read 10 cs

/-- The number at the start of an argument, behind blanks. -/
def integerAt (cs : List Char) : ReadNumber :=
  match cs.dropWhile fun c ↦ c == ' ' || ('\t' ≤ c && c ≤ '\r') with
  | '-' :: cs =>
    let n := naturalAt cs
    { n with value := -n.value }
  | '+' :: cs => naturalAt cs
  | cs => naturalAt cs

/-- The number of the character behind a quotation mark that an argument starts with. -/
def characterNumber? (text : String) : Option Nat :=
  match text.toList with
  | c :: cs => if c = '\'' ∨ c = '\x22' then some ((cs.head?.map Char.toNat).getD 0) else none
  | [] => none

/-- What is wrong with an argument that should be a number. -/
def numberComplaint? (text : String) (isFound isInRange : Bool) (rest : List Char) :
    Option String :=
  if text.isEmpty then none
  else if !isFound then some (text ++ ": expected numeric value")
  else if !rest.isEmpty then some (text ++ ": not completely converted")
  else if !isInRange then some (text ++ ": Numerical result out of range")
  else none

/-- An argument as a whole number of 64 bits, with or without a sign, and what is wrong with it. A
number that is too large or too small is cut. -/
def integerArgument (isSigned : Bool) (text : String) : Int × Option String :=
  match characterNumber? text with
  | some n => (n, none)
  | none =>
    let n := integerAt text.toList
    let least : Int := if isSigned then -0x8000000000000000 else -0x10000000000000000 + 1
    let greatest : Int := if isSigned then 0x8000000000000000 - 1 else 0x10000000000000000 - 1
    let value := if n.isFound then n.value else 0
    let cut := if value < least ∧ !isSigned then greatest else max least (min greatest value)
    (cut, numberComplaint? text n.isFound (least ≤ value && value ≤ greatest) n.rest)

/-- An argument as a floating-point number, and what is wrong with it. -/
def floatArgument (text : String) : Float × Option String :=
  match characterNumber? text, Decimal.floatAt? text.toList with
  | some n, _ => (Float.ofNat n, none)
  | none, some r => (r.value, numberComplaint? text true r.isInRange r.rest)
  | none, none => (0.0, numberComplaint? text false true [])

/-! ### Directives -/

/-- A number in a directive. -/
inductive Count where
  | number (n : Nat)
  /-- The next argument. -/
  | argument
  deriving DecidableEq, Repr

/-- How a directive sets its argument. -/
structure Directive where
  /-- How it is written. -/
  source : List Char
  flags : List Char
  width : Count
  precision? : Option Count
  letter : Char
  deriving DecidableEq, Repr

/-- Whether a character is a flag. -/
def isFlag (c : Char) : Bool :=
  c == '-' || c == '0' || c == '+' || c == ' ' || c == '#'

/-- The number at the start of a text, and what stands behind it. -/
def countAt : List Char → Count × List Char
  | '*' :: cs => (.argument, cs)
  | cs => (.number (numberOf 10 (cs.takeWhile Char.isDigit)), cs.dropWhile Char.isDigit)

/-- The directive whose percent sign stands in front of the text. -/
def Directive.ofText? (cs : List Char) : Option Directive :=
  let flags := cs.takeWhile isFlag
  let (width, rest) := countAt (cs.drop flags.length)
  let (precision?, rest) : Option Count × List Char :=
    match rest with
    | '.' :: rest =>
      let (precision, rest) := countAt rest
      (some precision, rest)
    | rest => (none, rest)
  rest.head?.map fun letter ↦
    ⟨cs.take (cs.length + 1 - rest.length), flags, width, precision?, letter⟩

/-- How an argument is set, once all numbers are known. -/
structure Setting where
  flags : List Char
  width : Nat
  precision? : Option Nat
  letter : Char
  deriving DecidableEq, Repr

namespace Setting

/-- The setting with a width; a negative one asks for what is set to stand on the left. -/
def withWidth (w : Int) (s : Setting) : Setting :=
  { s with width := w.natAbs, flags := if w < 0 then '-' :: s.flags else s.flags }

/-- Bytes filled up to the width. -/
def pad (s : Setting) (bs : Bytes) : Bytes :=
  let filling := List.replicate (s.width - bs.length) 32
  if s.flags.contains '-' then bs ++ filling else filling ++ bs

/-- A number without its sign, between what stands in front of it and zeros that fill the width. -/
def padNumber (s : Setting) (fillsZeros : Bool) (sign digits : List Char) : Bytes :=
  let digits :=
    if fillsZeros && s.flags.contains '0' && !s.flags.contains '-' then
      digits.leftpad (s.width - sign.length) '0'
    else digits
  s.pad (Text.encode (String.ofList (sign ++ digits)))

/-- What stands in front of a number with a sign. -/
def sign (s : Setting) (isNegative : Bool) : List Char :=
  if isNegative then ['-']
  else if s.flags.contains '+' then ['+']
  else if s.flags.contains ' ' then [' ']
  else []

/-- Whether the number is one with a sign. -/
def isSigned (s : Setting) : Bool :=
  s.letter == 'd' || s.letter == 'i'

/-- The digits of a number that is not negative. None stand for zero without any place. -/
def digits (s : Setting) (n : Nat) : List Char :=
  let ds :=
    match s.letter with
    | 'x' => Nat.toDigits 16 n
    | 'X' => (Nat.toDigits 16 n).map Char.toUpper
    | 'o' => Nat.toDigits 8 n
    | _ => Nat.toDigits 10 n
  (if n = 0 then [] else ds).leftpad (s.precision?.getD 1) '0'

/-- A number, set; a negative one without a sign goes on from the largest one downwards. -/
def setInteger (s : Setting) (n : Int) : Bytes :=
  if s.isSigned then
    s.padNumber s.precision?.isNone (s.sign (n < 0)) (s.digits n.natAbs)
  else
    let n := (n.emod 0x10000000000000000).toNat
    let ds := s.digits n
    let isMarked := s.flags.contains '#'
    match s.letter with
    | 'x' => s.padNumber s.precision?.isNone (if isMarked && n != 0 then ['0', 'x'] else []) ds
    | 'X' => s.padNumber s.precision?.isNone (if isMarked && n != 0 then ['0', 'X'] else []) ds
    | 'o' =>
      s.padNumber s.precision?.isNone []
        (if isMarked && ds.head? != some '0' then '0' :: ds else ds)
    | _ => s.padNumber s.precision?.isNone [] ds

/-- The form that a letter asks for. -/
def form? (letter : Char) : Option Decimal.Notation :=
  [('f', Decimal.Notation.fixed), ('e', .scientific), ('g', .general), ('a', .hexadecimal)].lookup
    letter.toLower

/-- A floating-point number, set. Zeros do not fill up what is no number. -/
def setFloat (s : Setting) (form : Decimal.Notation) (x : Float) : Bytes :=
  let (isNegative, parts) := Decimal.partsOf x
  let text := Decimal.Layout.text ⟨form, s.precision?, s.flags.contains '#'⟩ parts
  let text := if s.letter.isUpper then text.map Char.toUpper else text
  match parts, form with
  | .finite _ _, .hexadecimal =>
    s.padNumber true (s.sign isNegative ++ text.take 2) (text.drop 2)
  | .finite _ _, _ => s.padNumber true (s.sign isNegative) text
  | _, _ => s.padNumber false (s.sign isNegative) text

/-- Bytes cut to the precision. -/
def cut (s : Setting) (bs : Bytes) : Bytes :=
  (s.precision?.map bs.take).getD bs

end Setting

/-! ### Formats -/

/-- What a format has written so far. -/
structure Written where
  output : Bytes
  /-- What was wrong. -/
  complaints : List String
  status : Nat
  /-- The arguments that no directive has taken. -/
  arguments : List String
  /-- Whether nothing more is to be written. -/
  ended : Bool

namespace Written

/-- Nothing more is written but a complaint. -/
def fail (message : String) (w : Written) : Written :=
  { w with complaints := w.complaints ++ [message], status := 2, ended := true }

/-- More output. -/
def write (bs : Bytes) (w : Written) : Written :=
  { w with output := w.output ++ bs }

/-- A complaint, if there is one. -/
def complain (complaint? : Option String) (w : Written) : Written :=
  match complaint? with
  | none => w
  | some message => { w with complaints := w.complaints ++ [message], status := max w.status 1 }

/-- The next argument; one that is missing is empty. -/
def next (w : Written) : String :=
  w.arguments.head?.getD ""

/-- Without the next argument. -/
def drop (w : Written) : Written :=
  { w with arguments := w.arguments.tail }

/-- The number that a directive gives or takes from the arguments. -/
def count (c : Count) (w : Written) : Int × Written :=
  match c with
  | .number n => (n, w)
  | .argument =>
    let (n, complaint?) := integerArgument true w.next
    (Int.bmod n 0x100000000, w.drop.complain complaint?)

/-- The numbers in a directive. -/
def resolve (d : Directive) (w : Written) : Setting × Written :=
  let (width, w) := w.count d.width
  let s := Setting.withWidth width ⟨d.flags, 0, none, d.letter⟩
  match d.precision? with
  | none => (s, w)
  | some c =>
    let (precision, w) := w.count c
    ({ s with precision? := if precision < 0 then none else some precision.toNat }, w)

/-- Takes the next argument for a directive. -/
def take (d : Directive) (w : Written) : Written :=
  let (s, w) := w.resolve d
  let text := w.next
  match d.letter with
  | 's' => w.drop.write (s.pad (s.cut (Text.ofOctets text)))
  | 'c' => w.drop.write (s.pad [(Text.ofOctets text).head?.getD 0])
  | 'b' =>
    let (bs, ended) := unescape text
    { w.drop.write (s.pad (s.cut bs)) with ended }
  | 'd' | 'i' | 'u' | 'o' | 'x' | 'X' =>
    let (n, complaint?) := integerArgument s.isSigned text
    (w.drop.complain complaint?).write (s.setInteger n)
  | letter =>
    match Setting.form? letter with
    | some form =>
      let (x, complaint?) := floatArgument text
      (w.drop.complain complaint?).write (s.setFloat form x)
    | none => w.fail ("%" ++ String.ofList d.source ++ ": invalid directive")

end Written

/-- Goes through a format once, after `skip` more characters have been passed over. -/
def formatFrom : (skip : Nat) → List Char → Written → Written
  | _, [], w => w
  | skip + 1, _ :: cs, w => formatFrom skip cs w
  | 0, c :: cs, w =>
    if w.ended then w
    else if c = '\\' then
      let (b, length) := escapeAt cs
      formatFrom length cs (w.write [b])
    else if c = '%' then
      if cs.head? = some '%' then formatFrom 1 cs (w.write [37])
      else
        match Directive.ofText? cs with
        | some d => formatFrom d.source.length cs (w.take d)
        | none => w.fail "missing format character"
    else formatFrom 0 cs (w.write [UInt8.ofNat c.toNat])

/-- Goes through a format until no arguments are left; each time after the first, at least one
argument has to have been taken. -/
def formatAgain (format : List Char) : (times : Nat) → Written → Written
  | 0, w => w
  | times + 1, w =>
    let next := formatFrom 0 format w
    if next.ended || next.arguments.isEmpty || next.arguments.length == w.arguments.length then next
    else formatAgain format times next

/-- Writes a format with arguments. -/
def formatted (format : String) (arguments : List String) : Written :=
  formatAgain format.toList (arguments.length + 1) ⟨[], [], 0, arguments, false⟩

/-- Writes its first argument as a format for the others. -/
def printf (arguments : List String) : Reply :=
  match ReadLetters.ofArguments "" "" arguments with
  | .error message => .failure message
  | .ok ⟨_, []⟩ => .failure "usage: printf format [arg ...]"
  | .ok ⟨_, format :: arguments⟩ =>
    let w := formatted format arguments
    ⟨w.status, w.output, w.complaints⟩

end DocumentMath.Shell
