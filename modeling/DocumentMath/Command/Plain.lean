import DocumentMath.Command.Options
import DocumentMath.Command.QuotedName

/-!
# Plain programs

`tee` copies what it reads to files too, `echo` writes its arguments, and `sleep` takes some time.
Two programs do nothing but succeed or fail.
-/

namespace DocumentMath.Plain

open Text (Bytes)

/-! ### Copying to files -/

/-- The options of `tee`. -/
def teeOptions : OptionTable where
  plain := ['a', 'i', 'p']
  valued := []
  words := [("append", 'a'), ("ignore-interrupts", 'i')]
  anywhere := true

/-- Copies what it reads to files as well. -/
def tee : Program := Program.withOptions teeOptions fun r c ↦
  let write (bs : Bytes) (f : Finished) (name : String) : Finished :=
    let path := Path.ofOctets name
    let old := if r.has 'a' then ((f.files.read path).toOption).getD [] else []
    match f.files.device? path, f.files.write path (old ++ bs) with
    | some (.stream 1), _ => { f with written := f.written ++ [.output bs] }
    | some (.stream 2), _ => { f with written := f.written ++ [.errors bs] }
    | _, .ok files => { f with files }
    | _, .error e => f.failing (c.message (QuotedName.shown false name ++ ": " ++ e.reason))
  match c.readAll, c.outputFault? with
  | (.error e, c), _ =>
    let f := r.names.foldl (write []) (c.refuse ("read error: " ++ e.reason))
    if e = .badDescriptor then f.failing (c.message ("standard input: " ++ e.reason)) else f
  | (.ok bs, c), none => r.names.foldl (write bs) (c.finish 0 [.output bs])
  | (.ok bs, c), some e =>
    r.names.foldl (write bs) (c.refuse ("'standard output': " ++ e.reason))

/-! ### Writing arguments -/

/-- The value of a digit in base sixteen. -/
def hexDigit? (c : Char) : Option Nat :=
  if c.isDigit then some (c.toNat - 48)
  else if 'a' ≤ c.toLower ∧ c.toLower ≤ 'f' then some (c.toLower.toNat - 87)
  else none

/-- The number that digits in a base write. -/
def digitsValue (base : Nat) (digits : List Char) : Nat :=
  digits.foldl (fun n c ↦ base * n + (hexDigit? c).getD 0) 0

/-- The byte for which a letter behind a backslash stands. -/
def letterByte? (c : Char) : Option Nat :=
  [('\\', 92), ('a', 7), ('b', 8), ('e', 27), ('f', 12), ('n', 10), ('r', 13), ('t', 9),
    ('v', 11)].lookup c

/-- The byte that is written behind a backslash, and how many characters write it. -/
def escapeAt? (cs : List Char) : Option (Nat × Nat) :=
  let isOctal (c : Char) : Bool := '0' ≤ c && c ≤ '7'
  match cs with
  | 'x' :: rest =>
    let digits := (rest.take 2).takeWhile fun c ↦ (hexDigit? c).isSome
    if digits.isEmpty then none else some (digitsValue 16 digits, digits.length + 1)
  | '0' :: rest =>
    let digits := (rest.take 3).takeWhile isOctal
    some (digitsValue 8 digits, digits.length + 1)
  | c :: _ =>
    match letterByte? c with
    | some value => some (value, 1)
    | none =>
      let digits := (cs.take 3).takeWhile isOctal
      if digits.isEmpty then none else some (digitsValue 8 digits, digits.length)
  | [] => none

/-- A text in which backslashes start escapes, once `skip` more characters have been passed over;
and whether an escape has ended it. -/
def unescape : (skip : Nat) → List Char → Bytes × Bool
  | _, [] => ([], false)
  | skip + 1, _ :: cs => unescape skip cs
  | 0, c :: cs =>
    if c = '\\' ∧ cs.head? = some 'c' then ([], true)
    else
      match if c = '\\' then escapeAt? cs else none with
      | some (value, length) =>
        let (bs, isEnded) := unescape length cs
        (UInt8.ofNat value :: bs, isEnded)
      | none =>
        let (bs, isEnded) := unescape 0 cs
        (UInt8.ofNat c.toNat :: bs, isEnded)

/-- The letters of the options in front of what is written. -/
def echoOptions : List String → List Char × List String
  | text :: rest =>
    match text.toList with
    | '-' :: c :: cs =>
      if (c :: cs).all ['n', 'e', 'E'].contains then
        let (letters, words) := echoOptions rest
        (c :: cs ++ letters, words)
      else ([], text :: rest)
    | _ => ([], text :: rest)
  | [] => ([], [])

/-- Writes its arguments with blanks between them, and maybe the end of a line. -/
def echo : Program := Program.checked fun c ↦
  let (letters, words) := echoOptions c.arguments
  let text := " ".intercalate words
  let escapes := (letters.filter (· != 'n')).getLast? == some 'e'
  let (bs, isEnded) := if escapes then unescape 0 text.toList else (Text.ofOctets text, false)
  c.finish 0 [.output (bs ++ if isEnded || letters.contains 'n' then [] else [10])]

/-! ### Taking time -/

/-- Whether a text is a time: a number and maybe a unit. -/
def isTime (text : String) : Bool :=
  let digits := text.toList.takeWhile fun c ↦ c.isDigit || c == '.'
  let unit := text.toList.drop digits.length
  digits.any Char.isDigit && digits.count '.' ≤ 1 &&
    (unit.isEmpty || [['s'], ['m'], ['h'], ['d']].contains unit)

/-- Takes some time, which nobody sees. -/
def sleep : Program := fun c ↦
  match c.arguments.filter (!isTime ·) with
  | [] => if c.arguments.isEmpty then c.misuse "missing operand" else c.finish 0 []
  | text :: _ => c.misuse ("invalid time interval " ++ QuotedName.shown true text)

end DocumentMath.Plain
