import DocumentMath.Shell.Word

/-!
# Reading tokens

The text of a script is a list of tokens: words, signs between them, signs of redirections, and ends
of lines. Which words are reserved depends on where they stand, and so does which ones are names
that stand for other texts: such a text is put in the place of the name and read in its turn. While
it is being read, the name does not stand for it.
-/

namespace DocumentMath.Shell

/-- The words that are signs where a statement may start. -/
def reservedWords : List String :=
  ["!", "case", "do", "done", "elif", "else", "esac", "fi", "for", "if", "in", "then", "until",
    "while", "\x7b", "\x7d"]

/-- What the next token may be. -/
structure Expectation where
  /-- Whether ends of lines in front of it do not count. -/
  passesLineEnds : Bool
  /-- Whether it may be a reserved word. -/
  isReserved : Bool
  /-- Whether it may be a name that stands for a text. -/
  isAlias : Bool
  role : WordRole
  deriving DecidableEq, Repr

namespace Expectation

/-- What follows other tokens of a command. -/
def next : Expectation := ⟨false, false, false, .word⟩

/-- The start of a statement, maybe on a later line. -/
def start : Expectation := ⟨true, true, true, .word⟩

/-- The start of a statement on the same line, or what is behind a statement. -/
def startHere : Expectation := ⟨false, true, true, .word⟩

/-- The start of an arm of a selection, or its end. -/
def arm : Expectation := ⟨true, true, false, .word⟩

/-- The name of a command, or what is in front of it. -/
def command : Expectation := ⟨false, false, true, .word⟩

/-- The line that ends a text. -/
def last : Expectation := ⟨false, false, false, .last⟩

end Expectation

namespace Reading

/-! ### Tokens as they are written -/

/-- A text on a line without blanks in front of it. -/
def skipBlanks : (line : Nat) → List Char → Nat × List Char
  | line, '\\' :: '\n' :: cs => skipBlanks (line + 1) cs
  | line, c :: cs => if c = ' ' ∨ c = '\t' then skipBlanks line cs else (line, c :: cs)
  | line, [] => (line, [])

/-- A text on a line without blanks and a comment in front of it. -/
def skipComment (line : Nat) (cs : List Char) : Nat × List Char :=
  match skipBlanks line cs with
  | (line, '#' :: cs) => (line, cs.dropWhile (· != '\n'))
  | r => r

/-- Reads the sign of a redirection that starts with a character, of a stream unless it is the usual
one. -/
def redirection (c : Char) (stream? : Option Nat) : Reading Token := do
  pass
  if c = '>' then
    let kind ←
      if ← accept '>' then pure RedirectKind.append
      else if ← accept '|' then pure .clobber
      else if ← accept '&' then pure .copy
      else pure .write
    return .redirect (stream?.getD 1) kind false
  else
    let stream := stream?.getD 0
    if ← accept '<' then return .redirect stream .text (← accept '-')
    else if ← accept '&' then return .redirect stream .copy false
    else if ← accept '>' then return .redirect stream .readWrite false
    else return .redirect stream .read false

/-- Reads a word, or the sign of a redirection, which may have a digit in front. -/
def wordToken (role : WordRole) : Reading Token := do
  let w ← parts role .plain false
  let c? ← peek?
  let stream? : Option (Option Nat) :=
    match w with
    | [] => some none
    | [.char c false] => if c.isDigit then some (some (c.toNat - 48)) else none
    | _ => none
  match c?, stream? with
  | some '<', some stream? => redirection '<' stream?
  | some '>', some stream? => redirection '>' stream?
  | _, _ =>
    modify ({ · with word := w })
    return .word w

/-- Reads a token. -/
def scan (role : WordRole) : Reading Token := do
  modify fun p ↦
    let (line, rest) := skipComment p.line p.rest
    { p with line, rest }
  match ← peek? with
  | none => return .finish
  | some '\n' =>
    pass
    return .lineEnd
  | some c =>
    if c = '&' ∨ c = '|' ∨ c = ';' then
      pass
      let text := String.singleton c
      return .sign (if ← accept c then text ++ text else text)
    else if c = '(' ∨ c = ')' then
      pass
      return .sign (String.singleton c)
    else wordToken role

/-! ### Tokens as they are meant -/

/-- The text that a word stands for, if it is a name, and the replacement of the name. -/
def replacement? (name : String) : Reading (Option (String × Replacement)) := do
  let p ← get
  let isBusy := p.replacements.any fun r ↦ r.name == name && r.behind ≤ p.rest.length
  match (← read).aliases.lookup name with
  | some text =>
    let endsInBlank := text.toList.getLast?.any fun c ↦ c == ' ' || c == '\t'
    return if isBusy then none else some (text, ⟨name, p.rest.length, endsInBlank⟩)
  | none => return none

/-- Reads the next token, in at most so many steps. -/
def tokenFrom (e : Expectation) : (steps : Nat) → Reading Token
  | 0 => refuse .finish none
  | n + 1 => do
    let old ← get
    let before := old.rest.length
    modify ({ · with kept? := none })
    let t ←
      match old.kept? with
      | some t => pure t
      | none => scan e.role
    match t with
    | .lineEnd =>
      if e.passesLineEnds then
        askedTexts
        tokenFrom e n
      else return t
    | .word w =>
      let some cs := Word.literal? w | return t
      let text := String.ofList cs
      if e.isReserved && reservedWords.contains text then return .reserved text
      let p ← get
      let isBehindBlank := p.replacements.any fun r ↦
        r.endsInBlank && r.behind < before && p.rest.length + cs.length ≤ r.behind
      if e.isAlias || isBehindBlank then
        match ← replacement? text with
        | some (other, r) =>
          modify fun p ↦
            { p with
              rest := other.toList ++ p.rest
              replacements := r :: p.replacements.filter (·.behind ≤ p.rest.length) }
          tokenFrom { e with isAlias := true } n
        | none => return t
      else return t
    | t => return t

/-- Reads the next token. -/
def token (e : Expectation) : Reading Token := do
  tokenFrom e (← size)

/-- Lets a token be read again. -/
def keep (t : Token) : Reading Unit :=
  modify ({ · with kept? := some t })

/-- Reads a token, which has to be a sign or a reserved word. -/
def expect (e : Expectation) (text : String) : Reading Unit := do
  let t ← token e
  if !t.isSign text then refuse t (some ("\"" ++ text ++ "\""))

end Reading

end DocumentMath.Shell
