import DocumentMath.Shell.Script

/-!
# Reading scripts

A `Reading` reads a part of a text, from the characters to the statements. It counts lines. A
backslash in front of the end of a line joins the line to the next one, and both count for nothing.

What a word holds in `$(` and `)` is a script, and only reading it shows where it ends. So a reading
can read a script that stands in another one; it is told how, since this is up to what reads
statements.

A text that a command asks for stands behind the line, so what belongs to it is known only when the
line has been read. Such texts are found in a first reading of a line and given to a second one.
-/

namespace DocumentMath.Shell

/-! ### Tokens and mistakes -/

/-- A token of a script. -/
inductive Token where
  | word (w : Word)
  /-- A word that is a sign where it stands. -/
  | reserved (text : String)
  /-- The sign of a redirection, which may ask for a text without tabs in front of its lines. -/
  | redirect (stream : Nat) (kind : RedirectKind) (strips : Bool)
  | sign (text : String)
  | lineEnd
  | finish

namespace Token

/-- What a token is called in a message. -/
def name : Token → String
  | word _ => "word"
  | reserved text | sign text => "\"" ++ text ++ "\""
  | redirect _ _ _ => "redirection"
  | lineEnd => "newline"
  | finish => "end of file"

/-- Whether a token is a sign or a reserved word. -/
def isSign (text : String) : Token → Bool
  | sign other | reserved other => other == text
  | _ => false

/-- Whether a token is the end of a line. -/
def isLineEnd : Token → Bool
  | lineEnd => true
  | _ => false

/-- Whether a script inside of a statement ends in front of a token. -/
def endsScript (t : Token) : Bool :=
  [")", ";;", "do", "done", "elif", "else", "esac", "fi", "then", "\x7d"].any t.isSign

end Token

/-- Why a text is no script. -/
inductive ScriptError where
  | unterminatedQuote
  | unterminatedBrace
  | unterminatedAccents
  | unterminatedCalculation
  | loopVariable
  | functionName
  /-- A token that may not stand where it does, and the one that should. -/
  | unexpected (token : String) (expected? : Option String)
  deriving DecidableEq, Repr

/-- The error as a message. -/
def ScriptError.message (e : ScriptError) : String :=
  "Syntax error: " ++
    match e with
    | unterminatedQuote => "Unterminated quoted string"
    | unterminatedBrace => "Missing '\x7d'"
    | unterminatedAccents => "EOF in backquote substitution"
    | unterminatedCalculation => "Missing '))'"
    | loopVariable => "Bad for loop variable"
    | functionName => "Bad function name"
    | unexpected token none => token ++ " unexpected"
    | unexpected token (some other) => token ++ " unexpected (expecting " ++ other ++ ")"

/-- A mistake and the line it is on. -/
abbrev Fault := ScriptError × Nat

/-! ### How far a text has been read -/

/-- What names stand for where a command may start. -/
abbrev Aliases := List (String × String)

/-- The text of a name has been put in its place, in front of so many characters. -/
structure Replacement where
  name : String
  behind : Nat
  /-- Whether the text ends in a blank, so that the next word may be such a name too. -/
  endsInBlank : Bool
  deriving DecidableEq, Repr

/-- A text that a command asks for, up to a line that is a given one. -/
structure AskedText where
  index : Nat
  last : List Char
  /-- Whether tabs in front of lines do not count. -/
  strips : Bool
  /-- Whether nothing in the text is a reference. -/
  isQuoted : Bool
  deriving DecidableEq, Repr

/-- How far a text has been read. -/
structure Progress where
  rest : List Char
  line : Nat
  /-- A token that has been read, but is to be read again. -/
  kept? : Option Token
  /-- The last word. -/
  word : Word
  replacements : List Replacement
  /-- The texts that are asked for and have not been read. -/
  asked : List AskedText
  /-- How many texts have been asked for. -/
  askedCount : Nat
  /-- The texts that have been read. -/
  found : List (Nat × Word)

/-- Which part of a text is a script. -/
inductive Extent where
  /-- A line, or several if a statement goes on. -/
  | line
  /-- Statements up to a token that ends them. -/
  | body
  /-- The same, if there are any. -/
  | optional
  /-- The same, up to a closing parenthesis. -/
  | enclosed
  deriving DecidableEq, Repr

/-- What is known when a text is read. -/
structure Known where
  aliases : Aliases
  /-- The texts that have been found. -/
  texts : List (Nat × Word)
  /-- Reads a script in a script. -/
  script : Extent → StateT Progress (Except Fault) Script

/-- Reads a part of a text. -/
abbrev Reading := ReaderT Known (StateT Progress (Except Fault))

namespace Reading

/-- A mistake on the line up to which the text has been read. -/
def fail {α : Type} (e : ScriptError) : Reading α := do
  throw (e, (← get).line)

/-- A token may not stand where it does. -/
def refuse {α : Type} (t : Token) (expected? : Option String) : Reading α :=
  fail (.unexpected t.name expected?)

/-- Reads a script in a script. -/
def script (e : Extent) : Reading Script := do
  (← read).script e

/-- A number of steps that suffices to read what is left. -/
def size : Reading Nat := do
  let length := ((← read).aliases.map (·.2.length)).foldl (· + ·) 0
  return ((← get).rest.length + 2) * (length + 1)

/-! ### Characters -/

/-- A text on a line without the ends of joined lines in front of it. -/
def skipJoints : (line : Nat) → List Char → Nat × List Char
  | line, '\\' :: '\n' :: cs => skipJoints (line + 1) cs
  | line, cs => (line, cs)

/-- The longest start of a text on a line all of whose characters are of some kind, and what is left
of the text. -/
def spanJoined (p : Char → Bool) : (line : Nat) → List Char → List Char × Nat × List Char
  | line, '\\' :: '\n' :: cs => spanJoined p (line + 1) cs
  | line, c :: cs =>
    if p c then
      let (same, line, rest) := spanJoined p line cs
      (c :: same, line, rest)
    else ([], line, c :: cs)
  | line, [] => ([], line, [])

/-- The next character. -/
def peek? : Reading (Option Char) := do
  modify fun p ↦
    let (line, rest) := skipJoints p.line p.rest
    { p with line, rest }
  return (← get).rest.head?

/-- Passes over a character, which is not taken for the end of a line. -/
def drop : Reading Unit :=
  modify fun p ↦ { p with rest := p.rest.drop 1 }

/-- Passes over a character. -/
def pass : Reading Unit :=
  modify fun p ↦
    { p with
      rest := p.rest.drop 1
      line := if p.rest.head? = some '\n' then p.line + 1 else p.line }

/-- Passes over a character if it is the next one. -/
def accept (c : Char) : Reading Bool := do
  let found := (← peek?) == some c
  if found then pass
  return found

/-- Passes over all that is left. -/
def passAll : Reading Unit :=
  modify fun p ↦ { p with rest := [], line := p.line + p.rest.count '\n' }

/-- Reads all characters of some kind that come next. -/
def takeWhile (p : Char → Bool) : Reading (List Char) :=
  modifyGet fun s ↦
    let (same, line, rest) := spanJoined p s.line s.rest
    (same, { s with line, rest })

end Reading

end DocumentMath.Shell
