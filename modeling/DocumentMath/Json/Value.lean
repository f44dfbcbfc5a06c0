/-!
# JSON values

A JSON value as it is read: an object keeps its members in the order in which they are written, with
repeated names, and of a number it only matters which natural number it is, if it is one.

`compact` writes a value without blanks, and `pretty` writes every element and every member on a
line of its own. Both write a text with escapes for the quotation mark, the backslash and the
control characters, and keep all other characters.
-/

namespace DocumentMath

/-- A JSON value. -/
inductive Json where
  | null
  | bool (b : Bool)
  /-- A natural number of at most 64 bits, written without point and exponent. -/
  | natural (n : Nat)
  /-- Any other number. -/
  | number
  | string (s : String)
  | array (elements : List Json)
  | object (members : List (String × Json))
  deriving Repr, Inhabited

namespace Json

/-! ### Depth -/

mutual

/-- How deep arrays and objects nest in a value. -/
def depth : Json → Nat
  | array elements => depthAll elements + 1
  | object members => depthMembers members + 1
  | _ => 0

/-- How deep arrays and objects nest in some of the elements. -/
def depthAll : List Json → Nat
  | [] => 0
  | j :: js => max j.depth (depthAll js)

/-- How deep arrays and objects nest in some of the members. -/
def depthMembers : List (String × Json) → Nat
  | [] => 0
  | (_, j) :: ms => max j.depth (depthMembers ms)

end

/-! ### Texts -/

/-- A digit of a number below sixteen. -/
def hexDigit (n : Nat) : Char :=
  if n < 10 then Char.ofNat (48 + n) else Char.ofNat (87 + n)

/-- A character as it is written in a text. -/
def escapeChar (c : Char) : List Char :=
  if c = '\x22' then ['\\', '\x22']
  else if c = '\\' then ['\\', '\\']
  else if c = '\x08' then ['\\', 'b']
  else if c = '\x0C' then ['\\', 'f']
  else if c = '\n' then ['\\', 'n']
  else if c = '\r' then ['\\', 'r']
  else if c = '\t' then ['\\', 't']
  else if c.toNat < 0x20 then
    ['\\', 'u', '0', '0', hexDigit (c.toNat / 16), hexDigit (c.toNat % 16)]
  else [c]

/-- A text between quotation marks. -/
def quote (s : String) : List Char :=
  '\x22' :: (s.toList.flatMap escapeChar ++ ['\x22'])

/-- A value that holds no other values. -/
def scalar : Json → List Char
  | null => "null".toList
  | bool b => if b then "true".toList else "false".toList
  | natural n => Nat.toDigits 10 n
  | number => ['0', '.', '0']
  | string s => quote s
  | array _ => ['[', ']']
  | object _ => ['\x7b', '\x7d']

/-! ### Without blanks -/

mutual

/-- A value without blanks. -/
def compact : Json → List Char
  | array elements => '[' :: (compactElements elements ++ [']'])
  | object members => '\x7b' :: (compactMembers members ++ ['\x7d'])
  | j => j.scalar

/-- Elements with commas between them. -/
def compactElements : List Json → List Char
  | [] => []
  | [j] => j.compact
  | j :: js => j.compact ++ ',' :: compactElements js

/-- Members with commas between them. -/
def compactMembers : List (String × Json) → List Char
  | [] => []
  | [(name, j)] => quote name ++ ':' :: j.compact
  | (name, j) :: ms => quote name ++ ':' :: (j.compact ++ ',' :: compactMembers ms)

end

/-! ### On lines -/

/-- A new line that starts with two blanks for each level. -/
def newLine (level : Nat) : List Char :=
  '\n' :: List.replicate (2 * level) ' '

mutual

/-- A value on lines of its own, at a level of nesting. -/
def prettyAt (level : Nat) : Json → List Char
  | array [] => ['[', ']']
  | array elements =>
    '[' :: (prettyElements (level + 1) elements ++ newLine level ++ [']'])
  | object [] => ['\x7b', '\x7d']
  | object members =>
    '\x7b' :: (prettyMembers (level + 1) members ++ newLine level ++ ['\x7d'])
  | j => j.scalar

/-- Elements, each on a new line. -/
def prettyElements (level : Nat) : List Json → List Char
  | [] => []
  | [j] => newLine level ++ j.prettyAt level
  | j :: js => newLine level ++ j.prettyAt level ++ ',' :: prettyElements level js

/-- Members, each on a new line. -/
def prettyMembers (level : Nat) : List (String × Json) → List Char
  | [] => []
  | [(name, j)] => newLine level ++ quote name ++ ':' :: ' ' :: j.prettyAt level
  | (name, j) :: ms =>
    newLine level ++ quote name ++ ':' :: ' ' :: (j.prettyAt level ++ ',' :: prettyMembers level ms)

end

/-- A value on several lines. -/
def pretty (j : Json) : List Char :=
  j.prettyAt 0

end Json

end DocumentMath
