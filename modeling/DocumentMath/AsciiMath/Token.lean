import DocumentMath.AsciiMath.Symbol
import DocumentMath.Text.Blank

/-!
# Tokens of AsciiMath

An expression is read token by token, and blank characters in front of a token are passed over. A
token is a text in double quotes, a decimal number, a symbol, or any other single character; they
are tried in this order. `next?` reads one token and returns what is left of the text, which is
always shorter (`length_of_next?`). Only the end of the text, and nothing else, yields no token.
-/

namespace DocumentMath.AsciiMath

/-- A token of an expression. -/
inductive Token where
  /-- A text in double quotes. -/
  | quoted (text : List Char)
  /-- A number. -/
  | number (digits : List Char)
  | symbol (s : Symbol)
  /-- A character that starts nothing else. -/
  | character (c : Char)
  deriving DecidableEq, Repr

/-- The double quotation mark. -/
def quote : Char := '\x22'

/-- Whether a character is a decimal digit of ASCII. -/
def isDigit (c : Char) : Bool :=
  '0' ≤ c && c ≤ '9'

/-- The number at the start of a text: digits, and a point if digits follow it. -/
def numberAt (cs : List Char) : List Char × List Char :=
  let whole := cs.takeWhile isDigit
  match cs.dropWhile isDigit with
  | '.' :: rest =>
    if (rest.takeWhile isDigit).isEmpty then (whole, '.' :: rest)
    else (whole ++ '.' :: rest.takeWhile isDigit, rest.dropWhile isDigit)
  | rest => (whole, rest)

/-- The token that starts with the character `c`, and the text after it. -/
def tokenAt (c : Char) (cs : List Char) : Token × List Char :=
  if c = quote then
    (.quoted (cs.takeWhile (· ≠ quote)), (cs.dropWhile (· ≠ quote)).drop 1)
  else if isDigit c then
    ((.number (numberAt (c :: cs)).1), (numberAt (c :: cs)).2)
  else
    match lookup? (c :: cs) with
    | some s => (.symbol s, (c :: cs).drop s.input.length)
    | none => (.character c, cs)

/-- The next token of a text, and the text after it. -/
def next? (cs : List Char) : Option (Token × List Char) :=
  match Text.trimStart cs with
  | [] => none
  | c :: cs => some (tokenAt c cs)

/-- The text after its next token. -/
def skipToken (cs : List Char) : List Char :=
  match next? cs with
  | some (_, rest) => rest
  | none => []

/-- Whether the next token is a symbol with this role. -/
def nextIs (role : Role) (cs : List Char) : Bool :=
  match next? cs with
  | some (.symbol s, _) => s.role == role
  | _ => false

/-- The raw text of a group in parentheses of which `depth + 1` are open, and the text after it. A
group that is not closed reaches to the end. -/
def rawGroupFrom : (depth : Nat) → List Char → List Char × List Char
  | _, [] => ([], [])
  | depth, '(' :: cs =>
    let (raw, rest) := rawGroupFrom (depth + 1) cs
    ('(' :: raw, rest)
  | 0, ')' :: cs => ([], cs)
  | depth + 1, ')' :: cs =>
    let (raw, rest) := rawGroupFrom depth cs
    (')' :: raw, rest)
  | depth, c :: cs =>
    let (raw, rest) := rawGroupFrom depth cs
    (c :: raw, rest)

/-- The raw text of the group in parentheses that comes next, if one does. -/
def rawGroup? (cs : List Char) : Option (List Char × List Char) :=
  match Text.trimStart cs with
  | '(' :: cs => some (rawGroupFrom 0 cs)
  | _ => none

end DocumentMath.AsciiMath
