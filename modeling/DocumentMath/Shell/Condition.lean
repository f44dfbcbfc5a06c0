import DocumentMath.Command.Program

/-!
# Conditions

`test` and `[` succeed if a condition holds. A condition is a text that is not to be empty, a
question about one text, or a comparison of two; it may be negated, put in parentheses, and joined
to others. A text that could be an operator is none where an operand is needed, so that any two
texts can be compared; three arguments with a comparison in the middle are always one.
-/

namespace DocumentMath.Shell

namespace Condition

/-! ### Words -/

/-- What a word of a condition is. -/
inductive Token where
  | finish
  | operand
  | negation
  | conjunction
  | disjunction
  | opening
  | closing
  | unary (operator : String)
  | binary (operator : String)
  deriving DecidableEq, Repr

/-- The questions about one text. -/
def unaryOperators : List String :=
  ["-r", "-w", "-x", "-e", "-f", "-d", "-c", "-b", "-p", "-u", "-g", "-k", "-s", "-t", "-z", "-n",
    "-h", "-O", "-G", "-L", "-S"]

/-- The comparisons of two texts. -/
def binaryOperators : List String :=
  ["=", "!=", "<", ">", "-eq", "-ne", "-gt", "-ge", "-lt", "-le", "-nt", "-ot", "-ef"]

/-- What a word means where an operator may stand. -/
def operator? (word : String) : Option Token :=
  if unaryOperators.contains word then some (.unary word)
  else if binaryOperators.contains word then some (.binary word)
  else
    [("!", Token.negation), ("-a", .conjunction), ("-o", .disjunction), ("(", .opening),
      (")", .closing)].lookup word

/-- Whether a question has to be an operand: nothing is behind it, or a comparison with something
behind that. -/
def isOperand : List String → Bool
  | [] => true
  | [_] => false
  | word :: _ =>
    match operator? word with
    | some (.binary _) => true
    | _ => false

/-- What the first of several words is. -/
def tokenAt : List String → Token
  | [] => .finish
  | word :: rest =>
    match operator? word with
    | some (.unary text) => if isOperand rest then .operand else .unary text
    | some .opening => if rest.isEmpty then .operand else .opening
    | some t => t
    | none => .operand

/-! ### Questions and comparisons -/

/-- Why a condition is none. -/
inductive Mistake where
  | unexpected (word : String)
  | missingOperand (operator : String)
  | missingParenthesis
  | noNumber (text : String)
  deriving DecidableEq, Repr

/-- The mistake as a message. -/
def Mistake.message : Mistake → String
  | unexpected word =>
    if word.isEmpty then "unexpected operator" else word ++ ": unexpected operator"
  | missingOperand operator => operator ++ ": argument expected"
  | missingParenthesis => "closing paren expected"
  | noNumber text => "Illegal number: " ++ text

/-- A whole number of 64 bits between blanks. -/
def number (text : String) : Except Mistake Int :=
  let isBlank (c : Char) : Bool := c == ' ' || ('\t' ≤ c && c ≤ '\r')
  let cs := text.toList.dropWhile isBlank
  let (negative, cs) :=
    match cs with
    | '-' :: cs => (true, cs)
    | '+' :: cs => (false, cs)
    | cs => (false, cs)
  let digits := cs.takeWhile Char.isDigit
  let magnitude : Int := digits.foldl (fun n c ↦ n * 10 + (c.toNat - 48)) 0
  let n := if negative then -magnitude else magnitude
  if digits.isEmpty || !(cs.dropWhile Char.isDigit).all isBlank ||
      n < -0x8000000000000000 || 0x8000000000000000 ≤ n then
    .error (.noNumber text)
  else .ok n

/-- Whether an entry is what a letter asks for. -/
def entryIs (letter : String) : Entry → Bool := fun e ↦
  match letter, e with
  | "-e", _ | "-r", _ | "-w", _ | "-O", _ | "-G", _ => true
  | "-f", .file _ | "-f", .program _ | "-x", .program _ | "-s", .program _ => true
  | "-s", .file content => !content.isEmpty
  | "-h", .device (.stream _) | "-L", .device (.stream _) | "-p", .device (.stream _) => true
  | "-c", .device d =>
    match d with
    | .stream _ => false
    | _ => true
  | "-d", e | "-x", e | "-s", e => e.isDirectory
  | _, _ => false

/-- The answer to a question about one text. -/
def ask (files : FileTree) (operator text : String) : Except Mistake Bool :=
  match operator with
  | "-n" => .ok (!text.isEmpty)
  | "-z" => .ok text.isEmpty
  | "-t" => (number text).map fun _ ↦ false
  | _ => .ok ((files.lookup (.ofOctets text)).toOption.any (entryIs operator))

/-- The outcome of a comparison. -/
def compare (files : FileTree) (operator a b : String) : Except Mistake Bool :=
  let numbers (r : Int → Int → Bool) : Except Mistake Bool := do
    let m ← number a
    return r m (← number b)
  match operator with
  | "=" => .ok (a == b)
  | "!=" => .ok (a != b)
  | "<" => .ok (a < b)
  | ">" => .ok (b < a)
  | "-eq" => numbers fun m n ↦ m == n
  | "-ne" => numbers fun m n ↦ m != n
  | "-lt" => numbers fun m n ↦ m < n
  | "-le" => numbers fun m n ↦ m ≤ n
  | "-gt" => numbers fun m n ↦ n < m
  | "-ge" => numbers fun m n ↦ n ≤ m
  | "-ef" =>
    match files.find (.ofOctets a), files.find (.ofOctets b) with
    | .ok (p, _), .ok (q, _) => .ok (p == q)
    | _, _ => .ok false
  | _ => .ok false

/-! ### Conditions -/

/-- The value of a part of a condition, and the words from its last one on. -/
abbrev Value := Bool × List String

mutual

/-- Evaluates alternatives, of which the first word is what `t` says. -/
def alternatives (files : FileTree) : Nat → Token → List String → Except Mistake Value
  | 0, _, words => .ok (false, words)
  | n + 1, t, words => do
    let (a, words) ← conjunctions files n t words
    if tokenAt (words.drop 1) = .disjunction then
      let words := words.drop 2
      let (b, words) ← alternatives files n (tokenAt words) words
      return (a || b, words)
    else return (a, words)

/-- Evaluates conditions that all have to hold. -/
def conjunctions (files : FileTree) : Nat → Token → List String → Except Mistake Value
  | 0, _, words => .ok (false, words)
  | n + 1, t, words => do
    let (a, words) ← negations files n t words
    if tokenAt (words.drop 1) = .conjunction then
      let words := words.drop 2
      let (b, words) ← conjunctions files n (tokenAt words) words
      return (a && b, words)
    else return (a, words)

/-- Evaluates a condition that may be negated. -/
def negations (files : FileTree) : Nat → Token → List String → Except Mistake Value
  | 0, _, words => .ok (false, words)
  | n + 1, t, words =>
    if t = .negation then do
      let next := tokenAt (words.drop 1)
      let (a, words) ←
        negations files n next (if next = .finish then words else words.drop 1)
      return (!a, words)
    else primary files n t words

/-- Evaluates a condition that is not made of others, or one in parentheses. -/
def primary (files : FileTree) : Nat → Token → List String → Except Mistake Value
  | 0, _, words => .ok (false, words)
  | n + 1, t, words =>
    match t, words with
    | .finish, _ | _, [] => .ok (false, words)
    | .opening, _ :: words =>
      if tokenAt words = .closing then .ok (false, words)
      else do
        let (a, words) ← alternatives files n (tokenAt words) words
        let words := words.drop 1
        if tokenAt words = .closing then return (a, words) else throw .missingParenthesis
    | .unary operator, _ :: text :: rest => do
      return (← ask files operator text, text :: rest)
    | .unary operator, _ => .error (.missingOperand operator)
    | _, a :: rest =>
      match tokenAt rest, rest with
      | .binary operator, _ :: b :: rest => do
        return (← compare files operator a b, b :: rest)
      | .binary operator, _ => .error (.missingOperand operator)
      | _, _ => .ok (!a.isEmpty, a :: rest)

end

/-- Whether the condition holds that words make. -/
def evaluate (files : FileTree) (t : Token) (words : List String) : Except Mistake Bool := do
  match ← alternatives files (5 * (words.length + 2)) t words with
  | (_, word :: _ :: _) => throw (.unexpected word)
  | (a, _) => return a

/-- Whether a condition holds. Few words are looked at as a whole first; then a negation in front of
another one changes nothing. -/
def holdsFrom (negated : Bool) (files : FileTree) : List String → Except Mistake Bool
  | [] => .ok negated
  | [a, operator, b] =>
    if binaryOperators.contains operator then conclude (evaluate files .operand [a, operator, b])
    else if a = "(" ∧ b = ")" then conclude (evaluate files (tokenAt [operator]) [operator])
    else if a = "!" then holdsFrom true files [operator, b]
    else conclude (evaluate files (tokenAt [a, operator, b]) [a, operator, b])
  | [a, b, c, d] =>
    if a = "(" ∧ d = ")" then conclude (evaluate files (tokenAt [b, c]) [b, c])
    else if a = "!" then holdsFrom true files [b, c, d]
    else conclude (evaluate files (tokenAt [a, b, c, d]) [a, b, c, d])
  | words => conclude (evaluate files (tokenAt words) words)
where
  /-- What has been found out, or its negation. -/
  conclude (r : Except Mistake Bool) : Except Mistake Bool :=
    r.map (· != negated)

/-- Whether a condition holds. -/
def holds (files : FileTree) (words : List String) : Except Mistake Bool :=
  holdsFrom false files words

end Condition

/-- Succeeds if a condition holds. -/
def test (files : FileTree) (condition : List String) : Reply :=
  match Condition.holds files condition with
  | .ok held => ⟨if held then 0 else 1, [], []⟩
  | .error mistake => .failure mistake.message

/-- Succeeds if a condition in brackets holds. -/
def bracket (files : FileTree) (arguments : List String) : Reply :=
  match arguments.getLast? with
  | some "]" => test files arguments.dropLast
  | _ => .failure "missing ]"

end DocumentMath.Shell
