/-!
# Calculations

Calculations are done with whole numbers of 64 bits. A formula is read with the usual precedence of
operators; a name in it stands for the number that a variable holds, and may get another one. What
is read is calculated at once, unless the result does not depend on it; so the first mistake of all
is found.
-/

namespace DocumentMath.Shell

/-- Why a calculation has no result. -/
inductive CalculationError where
  | divisionByZero
  /-- Something is missing. -/
  | incomplete
  /-- A sign is missing. -/
  | missing (sign : String)
  /-- Something is too much. -/
  | trailing
  /-- A variable holds no number. -/
  | noNumber (value : String)
  /-- The value of a variable cannot be changed. -/
  | fixed (name : String)
  deriving DecidableEq, Repr

/-- The error as a message, for a text. -/
def CalculationError.message (text : String) (e : CalculationError) : String :=
  let about (what : String) : String := "arithmetic expression: " ++ what ++ ": \"" ++ text ++ "\""
  match e with
  | divisionByZero => about "division by zero"
  | incomplete => about "expecting primary"
  | missing sign => about ("expecting '" ++ sign ++ "'")
  | trailing => about "expecting EOF"
  | noNumber value => "Illegal number: " ++ value
  | fixed name => name ++ ": is read only"

namespace Calculation

/-! ### Tokens -/

/-- The operators with two sides, those that bind less first. -/
def levels : List (List String) :=
  [["||"], ["&&"], ["|"], ["^"], ["&"], ["==", "!="], ["<=", ">=", "<", ">"], ["<<", ">>"],
    ["+", "-"], ["*", "/", "%"]]

/-- The signs that give a variable a number, with the operators in them. -/
def assignments : List (String × Option String) :=
  [("=", none), ("+=", some "+"), ("-=", some "-"), ("*=", some "*"), ("/=", some "/"),
    ("%=", some "%"), ("<<=", some "<<"), (">>=", some ">>"), ("&=", some "&"), ("|=", some "|"),
    ("^=", some "^")]

/-- All operators and signs, the longer ones first. -/
def signs : List String :=
  ["<<=", ">>=", "||", "&&", "==", "!=", "<=", ">=", "<<", ">>", "+=", "-=", "*=", "/=", "%=",
    "&=", "|=", "^=", "|", "^", "&", "<", ">", "+", "-", "*", "/", "%", "!", "~", "?", ":", "=",
    "(", ")"]

/-- A token of a calculation. -/
inductive Token where
  | number (n : Int)
  | name (text : String)
  | sign (text : String)
  deriving DecidableEq, Repr

/-- The value of a digit, up to sixteen. -/
def digitValue (c : Char) : Nat :=
  if c.isDigit then c.toNat - 48 else c.toLower.toNat - 87

/-- The number at the start of a text, and the text behind it: in base sixteen behind `0x`, in base
eight behind another zero. -/
def numberAt (cs : List Char) : Int × List Char :=
  let isDigit (base : Nat) (c : Char) : Bool := c.isAlphanum && digitValue c < base
  let read (base : Nat) (cs : List Char) : Int × List Char :=
    ((cs.takeWhile (isDigit base)).foldl (fun n c ↦ n * base + digitValue c) 0,
      cs.dropWhile (isDigit base))
  match cs with
  | '0' :: c :: cs =>
    if c.toLower = 'x' ∧ cs.head?.any (isDigit 16) then read 16 cs else read 8 ('0' :: c :: cs)
  | cs => read 10 cs

/-- Whether a character belongs to a name or a number. -/
def isNameChar (c : Char) : Bool :=
  c.isAlphanum || c == '_'

/-- The tokens of a text, once `skip` more characters have been passed over. -/
def tokens : (skip : Nat) → List Char → List Token
  | _, [] => []
  | skip + 1, _ :: cs => tokens skip cs
  | 0, c :: cs =>
    if c = ' ' ∨ c = '\t' ∨ c = '\n' then tokens 0 cs
    else if c.isDigit then
      let (n, rest) := numberAt (c :: cs)
      .number n :: tokens (cs.length - rest.length) cs
    else if isNameChar c then
      let name := (c :: cs).takeWhile isNameChar
      .name (String.ofList name) :: tokens (name.length - 1) cs
    else
      let sign := (signs.find? fun s ↦ s.toList.isPrefixOf (c :: cs)).getD (String.singleton c)
      .sign sign :: tokens (sign.length - 1) cs

/-! ### Numbers -/

/-- A number cut to 64 bits. -/
def cut (n : Int) : Int := Int.bmod n 0x10000000000000000

/-- The largest number of 64 bits. -/
def largest : Int := 0x8000000000000000 - 1

/-- The number that the value of a variable is, if it is one: blanks may stand around it, and if
there is nothing else it is zero. -/
def numberOfValue (value : String) : Except CalculationError Int :=
  let dropBlanks (cs : List Char) : List Char :=
    cs.dropWhile fun c ↦ c == ' ' || ('\t' ≤ c && c ≤ '\r')
  let text := dropBlanks value.toList
  let (isNegative, digits) :=
    match text with
    | '-' :: cs => (true, cs)
    | '+' :: cs => (false, cs)
    | cs => (false, cs)
  let (size, rest) := numberAt digits
  let n := if isNegative then -size else size
  if text.isEmpty then .ok 0
  else if digits.head?.all (!·.isDigit) || !(dropBlanks rest).isEmpty || n < -largest - 1 ||
      largest < n then
    .error (.noNumber value)
  else .ok n

/-- A truth value as a number. -/
def ofBool (b : Bool) : Int := if b then 1 else 0

/-- What bits do to a number that may be negative. -/
def onBits (f : UInt64 → UInt64 → UInt64) (a b : Int) : Int :=
  cut (f (UInt64.ofNat (a.emod 0x10000000000000000).toNat)
    (UInt64.ofNat (b.emod 0x10000000000000000).toNat)).toNat

/-- What an operator with two sides makes of numbers. -/
def apply (operator : String) (a b : Int) : Except CalculationError Int :=
  match operator with
  | "||" => .ok (ofBool (a ≠ 0 ∨ b ≠ 0))
  | "&&" => .ok (ofBool (a ≠ 0 ∧ b ≠ 0))
  | "|" => .ok (onBits (· ||| ·) a b)
  | "^" => .ok (onBits (· ^^^ ·) a b)
  | "&" => .ok (onBits (· &&& ·) a b)
  | "==" => .ok (ofBool (a = b))
  | "!=" => .ok (ofBool (a ≠ b))
  | "<=" => .ok (ofBool (a ≤ b))
  | ">=" => .ok (ofBool (a ≥ b))
  | "<" => .ok (ofBool (a < b))
  | ">" => .ok (ofBool (a > b))
  | "<<" => .ok (onBits (· <<< ·) a b)
  | ">>" => .ok (a >>> (b.emod 64).toNat)
  | "+" => .ok (cut (a + b))
  | "-" => .ok (cut (a - b))
  | "*" => .ok (cut (a * b))
  | "/" => if b = 0 then .error .divisionByZero else .ok (cut (a.tdiv b))
  | "%" => if b = 0 then .error .divisionByZero else .ok (a.tmod b)
  | _ => .error .incomplete

/-! ### Calculating -/

/-- What a calculation knows of variables. -/
structure Variables where
  valueOf : String → String
  isFixed : String → Bool

/-- How far a calculation is. -/
structure Progress where
  tokens : List Token
  /-- The numbers that variables have got, the last ones first. -/
  assigned : List (String × Int)

/-- A part of a calculation. -/
abbrev Step := StateT Progress (Except CalculationError)

/-- The next token. -/
def peek : Step (Option Token) := do
  return (← get).tokens.head?

/-- Passes over a token, and tells which it is. -/
def take : Step (Option Token) := do
  let t? ← peek
  modify fun p ↦ { p with tokens := p.tokens.tail }
  return t?

/-- Passes over a sign, which has to be the next token. -/
def expect (sign : String) : Step Unit := do
  if (← take) ≠ some (.sign sign) then throw (.missing sign)

/-- The number that a variable holds. -/
def numberOf (v : Variables) (name : String) : Step Int := do
  match (← get).assigned.lookup name with
  | some n => return n
  | none => numberOfValue (v.valueOf name)

/-- Gives a variable a number. -/
def assign (v : Variables) (name : String) (n : Int) : Step Int := do
  if v.isFixed name then throw (.fixed name)
  modify fun p ↦ { p with assigned := (name, n) :: p.assigned }
  return n

/-- The operator between two sides that comes next, if it is one of some operators. -/
def operator? (operators : List String) : Step (Option String) := do
  match ← peek with
  | some (.sign s) => return if operators.contains s then some s else none
  | _ => return none

/-- Whether the right side of an operator matters behind a number. -/
def needsRight (operator : String) (a : Int) : Bool :=
  !(operator = "&&" ∧ a = 0 ∨ operator = "||" ∧ a ≠ 0)

mutual

/-- An operand: a number, a name, something in parentheses, or one of these behind a sign. What does
not matter is not calculated. -/
def operand (v : Variables) (matter : Bool) : (fuel : Nat) → Step Int
  | 0 => throw .incomplete
  | n + 1 => do
    match ← take with
    | some (.number k) => return min k largest
    | some (.name name) => if matter then numberOf v name else return 0
    | some (.sign "(") => do
      let k ← whole v matter n
      expect ")"
      return k
    | some (.sign "+") => operand v matter n
    | some (.sign "-") => return cut (-(← operand v matter n))
    | some (.sign "!") => return ofBool ((← operand v matter n) = 0)
    | some (.sign "~") => return -(← operand v matter n) - 1
    | _ => throw .incomplete

/-- Operands between operators of some levels. -/
def level (v : Variables) (matter : Bool) : (fuel : Nat) → List (List String) → Step Int
  | 0, _ => throw .incomplete
  | n + 1, [] => operand v matter n
  | n + 1, operators :: tighter => do more v matter n operators tighter (← level v matter n tighter)

/-- What follows an operand on a level. -/
def more (v : Variables) (matter : Bool) : (fuel : Nat) → List String → List (List String) → Int →
    Step Int
  | 0, _, _, _ => throw .incomplete
  | n + 1, operators, tighter, a => do
    match ← operator? operators with
    | none => return a
    | some operator => do
      let _ ← take
      let b ← level v (matter && needsRight operator a) n tighter
      more v matter n operators tighter (← if matter then apply operator a b else pure 0)

/-- An expression that chooses between two others, or one that does not. -/
def choice (v : Variables) (matter : Bool) : (fuel : Nat) → Step Int
  | 0 => throw .incomplete
  | n + 1 => do
    let k ← level v matter n levels
    if (← peek) ≠ some (.sign "?") then return k
    else
      let _ ← take
      let a ← whole v (matter && k != 0) n
      expect ":"
      let b ← choice v (matter && k == 0) n
      return if k ≠ 0 then a else b

/-- An expression, which may give a variable a number. -/
def whole (v : Variables) (matter : Bool) : (fuel : Nat) → Step Int
  | 0 => throw .incomplete
  | n + 1 => do
    match (← get).tokens with
    | .name name :: .sign s :: rest =>
      match assignments.lookup s with
      | none => choice v matter n
      | some operator? => do
        modify fun p ↦ { p with tokens := rest }
        let k ← whole v matter n
        match matter, operator? with
        | false, _ => return k
        | true, none => assign v name k
        | true, some operator => assign v name (← apply operator (← numberOf v name) k)
    | _ => choice v matter n

end

end Calculation

/-- The result of the calculation that a text writes, and the numbers that variables get, the last
ones first. -/
def calculate (v : Calculation.Variables) (text : String) :
    Except CalculationError (Int × List (String × Int)) := do
  let tokens := Calculation.tokens 0 text.toList
  let (n, p) ← (Calculation.whole v true (16 * (tokens.length + 1))).run ⟨tokens, []⟩
  if p.tokens.isEmpty then return (n, p.assigned) else throw .trailing

end DocumentMath.Shell
