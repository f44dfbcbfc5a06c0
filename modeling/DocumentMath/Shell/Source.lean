import DocumentMath.Shell.Token

/-!
# Reading statements

A `Source` is a text whose lines are read one after the other. Each line, or several lines if a
statement goes on, is a script of its own; so the lines in front of a mistake can be run, and a line
can say what words of later lines stand for.
-/

namespace DocumentMath.Shell

namespace Reading

/-! ### Simple commands -/

/-- The command with one more word. -/
def addWord (w : Word) (c : SimpleCommand) : SimpleCommand :=
  match c.words, Word.assignment? w with
  | [], some a => { c with assignments := c.assignments ++ [a] }
  | ws, _ => { c with words := ws ++ [w] }

/-- Asks for a text up to a line that a word says. In the first reading of a line the text is not
known. -/
def askFor (last : Word) (strips : Bool) : Reading Word := do
  let index := (← get).askedCount
  let a : AskedText := ⟨index, last.filterMap Part.char?, strips, (Word.literal? last).isNone⟩
  modify fun p ↦ { p with asked := p.asked ++ [a], askedCount := index + 1 }
  return ((← read).texts.lookup index).getD []

/-- Reads what is behind the sign of a redirection. -/
def target (stream : Nat) (kind : RedirectKind) (strips : Bool) : Reading Redirection := do
  match ← token (if kind = .text then .last else .next) with
  | .word w =>
    return ⟨stream, kind, ← if kind = .text then askFor w strips else pure w⟩
  | t => refuse t none

/-- Reads the rest of a simple command. -/
def simpleFrom : (steps : Nat) → SimpleCommand → Reading SimpleCommand
  | 0, _ => refuse .finish none
  | n + 1, c => do
    match ← token (if c.words.isEmpty then .command else .next) with
    | .word w => simpleFrom n (addWord w c)
    | .redirect stream kind strips =>
      let r ← target stream kind strips
      simpleFrom n { c with redirections := c.redirections ++ [r] }
    | t =>
      keep t
      return c

/-- Reads the redirections behind a statement. No reserved word may follow the first of them. -/
def redirectionsFrom : (steps : Nat) → Expectation → Reading (List Redirection)
  | 0, _ => refuse .finish none
  | n + 1, e => do
    match ← token e with
    | .redirect stream kind strips =>
      let r ← target stream kind strips
      return r :: (← redirectionsFrom n .next)
    | t =>
      keep t
      return []

/-! ### Statements made of scripts -/

/-- Reads the other branches of a condition, and their end. -/
def otherBranches : (steps : Nat) → Reading Script
  | 0 => refuse .finish none
  | n + 1 => do
    let t ← token .next
    if t.isSign "elif" then
      let condition ← script .body
      expect .next "then"
      let body ← script .body
      return [.alone (.branch condition body (← otherBranches n))]
    else if t.isSign "else" then
      let body ← script .body
      expect .next "fi"
      return body
    else
      keep t
      expect .next "fi"
      return []

/-- Reads words up to another token, which comes along. -/
def wordsFrom : (steps : Nat) → Reading (List Word × Token)
  | 0 => refuse .finish none
  | n + 1 => do
    match ← token .next with
    | .word w =>
      let (ws, t) ← wordsFrom n
      return (w :: ws, t)
    | t => return ([], t)

/-- Reads the rest of a statement that goes through words; unless words are given, these are all
arguments. -/
def eachWord (line : Nat) : Reading Statement := do
  let .word w ← token .next | fail .loopVariable
  let some name := Word.literal? w | fail .loopVariable
  if !isVariableName name then fail .loopVariable
  let t ← token .start
  let words ←
    if t.isSign "in" then
      let (ws, t) ← wordsFrom (← size)
      if !t.isSign ";" && !t.isLineEnd then refuse t none
      pure ws
    else
      if !t.isSign ";" then keep t
      pure [[.reference (.value .all) true]]
  expect .start "do"
  let body ← script .body
  expect .next "done"
  return .each line (String.ofList name) words body

/-- Reads the patterns of an arm, the first of which is the last word that has been read. -/
def patterns : (steps : Nat) → Reading (List Word)
  | 0 => refuse .finish none
  | n + 1 => do
    let w := (← get).word
    let t ← token .next
    if t.isSign "|" then
      let _ ← token .next
      return w :: (← patterns n)
    else if t.isSign ")" then return [w]
    else refuse t (some "\")\"")

/-- Reads the arms of a selection, and their end. -/
def arms : (steps : Nat) → Reading (List (List Word × Script))
  | 0 => refuse .finish none
  | n + 1 => do
    let t ← token .arm
    if t.isSign "esac" then return []
    if t.isSign "(" then let _ ← token .next
    let ws ← patterns (← size)
    let body ← script .optional
    let t ← token .arm
    if t.isSign "esac" then return [(ws, body)]
    else if t.isSign ";;" then return (ws, body) :: (← arms n)
    else refuse t (some "\";;\"")

/-- Reads the rest of a selection. -/
def selection (line : Nat) : Reading Statement := do
  match ← token .next with
  | .word w =>
    expect .start "in"
    return .select line w (← arms (← size))
  | t => refuse t (some "word")

/-- Reads the rest of a repetition. -/
def repetition (untilSuccess : Bool) : Reading Statement := do
  let condition ← script .body
  expect .next "do"
  let body ← script .body
  expect .next "done"
  return .loop untilSuccess condition body

/-- Reads the rest of a statement on a line that starts with a sign or a reserved word, if any
does. -/
def compound? (line : Nat) : String → Option (Reading Statement)
  | "\x7b" => some do
    let body ← script .body
    expect .next "\x7d"
    return .group body
  | "(" => some do
    let body ← script .body
    expect .next ")"
    return .apart line body
  | "if" => some do
    let condition ← script .body
    expect .next "then"
    let body ← script .body
    return .branch condition body (← otherBranches (← size))
  | "while" => some (repetition false)
  | "until" => some (repetition true)
  | "for" => some (eachWord line)
  | "case" => some (selection line)
  | _ => none

/-- The statement that a token starts. -/
def compoundAt? (line : Nat) : Token → Option (Reading Statement)
  | .sign text | .reserved text => compound? line text
  | _ => none

/-- The commands that no function can replace. -/
def specialCommands : List String :=
  [":", ".", "break", "continue", "eval", "exec", "exit", "export", "local", "readonly", "return",
    "set", "shift", "times", "trap", "unset"]

/-- The name of a function. -/
def functionName (w : Word) : Reading String := do
  let some name := Word.literal? w | fail .functionName
  if !isVariableName name || specialCommands.contains (String.ofList name) then fail .functionName
  return String.ofList name

/-- Reads a statement whose first token is an expected one. -/
def statement : (levels : Nat) → Expectation → Reading Statement
  | 0, _ => refuse .finish none
  | n + 1, e => do
    let line := (← get).line
    let t ← token e
    match compoundAt? line t, t with
    | some rest, _ =>
      let s ← rest
      let rs ← redirectionsFrom (← size) .startHere
      return if rs.isEmpty then s else .redirected line s rs
    | none, .word _ | none, .redirect _ _ _ =>
      keep t
      let c ← simpleFrom (← size) ⟨(← get).line, [], [], []⟩
      match c with
      | ⟨_, [], [w], []⟩ =>
        let t ← token .next
        if t.isSign "(" then
          expect .next ")"
          let name ← functionName w
          return .define name (← statement n .start)
        else
          keep t
          return .simple c
      | _ => return .simple c
    | none, t => refuse t none

/-! ### Scripts -/

/-- Reads the statements of a pipeline. -/
def stages : (steps : Nat) → Expectation → Reading (List Statement)
  | 0, _ => refuse .finish none
  | n + 1, e => do
    let s ← statement (← size) e
    let t ← token .next
    if t.isSign "|" then return s :: (← stages n .start)
    else
      keep t
      return [s]

/-- Reads pipelines of which each is run only if the one before it has succeeded or failed. -/
def chain : (steps : Nat) → Joint → Expectation → Reading Script
  | 0, _, _ => refuse .finish none
  | n + 1, joint, e => do
    let t ← token e
    let isNegated := t.isSign "!"
    if !isNegated then keep t
    let statements ← stages (← size) (if isNegated then .startHere else .next)
    let l := Link.pipeline joint isNegated statements
    let t ← token .next
    if t.isSign "&&" then return l :: (← chain n .onSuccess .start)
    else if t.isSign "||" then return l :: (← chain n .onFailure .start)
    else
      keep t
      return [l]

/-- Reads a script up to what ends it, which is kept unless it is the end of a line. -/
def scriptFrom (e : Extent) : (steps : Nat) → (isFirst : Bool) → Reading Script
  | 0, _ => refuse .finish none
  | n + 1, isFirst => do
    let t ← token (if e = .line then .startHere else .start)
    match t with
    | .lineEnd =>
      askedTexts
      return []
    | .finish =>
      askedTexts
      keep t
      return []
    | _ =>
      keep t
      if (e = .optional ∨ e = .enclosed ∨ e = .body ∧ !isFirst) ∧ t.endsScript then return []
      else
        let ls ← chain (← size) .always .next
        let t ← token .next
        let ls := if t.isSign "&" then [Link.alone (.aside ls)] else ls
        match t with
        | .finish =>
          askedTexts
          keep t
          return ls
        | .lineEnd =>
          keep t
          return ls ++ (← scriptFrom e n false)
        | t =>
          if t.isSign "&" || t.isSign ";" then return ls ++ (← scriptFrom e n false)
          else if e = .line then refuse t none
          else
            keep t
            return ls

/-- Reads a script. Texts that are asked for in parentheses have to stand there too. -/
def anyScript (e : Extent) : Reading Script := do
  if e = .enclosed then
    let asked := (← get).asked
    modify ({ · with asked := [] })
    let s ← scriptFrom e (← size) true
    expect .next ")"
    modify ({ · with asked })
    return s
  else scriptFrom e (← size) true

/-- What is known of a text in which scripts are nested at most so many levels deep. -/
def known (aliases : Aliases) (texts : List (Nat × Word)) : (levels : Nat) → Known
  | 0 => ⟨aliases, texts, fun _ ↦ throw (.unterminatedBrace, 0)⟩
  | levels + 1 => ⟨aliases, texts, fun e ↦ (anyScript e).run (known aliases texts levels)⟩

end Reading

/-! ### Texts -/

/-- A text of which some lines may have been read. -/
structure Source where
  rest : List Char
  line : Nat
  replacements : List Replacement

namespace Source

/-- A text that starts on a line, of which nothing has been read. -/
def ofText (line : Nat) (text : String) : Source :=
  ⟨text.toList, line, []⟩

/-- The start of a reading. -/
def progress (s : Source) : Progress :=
  ⟨s.rest, s.line, none, [], s.replacements, [], 0, []⟩

/-- A number of lines that a text does not have even if names in it stand for other texts. -/
def size (aliases : Aliases) (s : Source) : Nat :=
  let length := s.rest.length + 1
  length * (length + (aliases.map (·.2.length)).foldl (· + ·) 0)

/-- Reads a part of a text. As long as texts are found that it asks for, it is read again with what
has been found, since such a text may itself hold commands that ask for others. -/
def reading {α : Type} (aliases : Aliases) (s : Source) (r : Reading α) :
    Except Fault (α × Progress) := do
  let levels := s.rest.length + (aliases.map (·.2.length)).foldl (· + ·) 0 + 2
  let attempt (texts : List (Nat × Word)) : Except Fault (α × Progress) :=
    (r.run (Reading.known aliases texts levels)).run s.progress
  let first ← attempt []
  first.2.found.foldlM (fun last _ ↦ attempt last.2.found) first

/-- The next line of a text as a script, the rest of the text, and whether the text is over; or the
mistake in the line. -/
def next (aliases : Aliases) (s : Source) : Except Fault (Script × Source × Bool) := do
  let (script, p) ← s.reading aliases (Reading.anyScript .line)
  return (script, ⟨p.rest, p.line, p.replacements⟩, p.kept?.isSome)

end Source

/-- A whole text on a line as a word in which references count, but no quotation marks. -/
def Word.ofText (line : Nat) (text : String) : Except Fault Word :=
  ((Source.ofText line text).reading [] (Reading.parts (.text none) .text false)).map (·.1)

end DocumentMath.Shell
