import DocumentMath.Shell.Reading

/-!
# Reading words

Quotation marks and backslashes take away what a character means otherwise. A dollar sign or a grave
accent starts a reference, except in single quotation marks and in a word that says what ends a
text.

What a reference holds in braces is a word too, which ends at the closing brace and at nothing else.
If the reference stands in double quotation marks, so does that word; other double ones in it only
keep a brace from ending it, unless it is a pattern for what is left out of a value, which is read
as if there were no marks around the reference.
-/

namespace DocumentMath.Shell

/-! ### Where characters stand -/

/-- What is read as a word. -/
inductive WordRole where
  | word
  /-- A word that says what ends a text. -/
  | last
  /-- A text, which may be one that a command asks for. -/
  | text (asked? : Option AskedText)
  deriving DecidableEq, Repr

/-- Whether a text is read. -/
def WordRole.isText : WordRole → Bool
  | text _ => true
  | _ => false

/-- What a character of a word stands in. -/
inductive Quoting where
  | plain
  /-- Braces, whether they are quoted or not. -/
  | braces
  /-- Double quotation marks, which may stand in braces. -/
  | double (inBraces : Bool)
  /-- Quoted braces. Double quotation marks may keep a brace from ending them. -/
  | quotedBraces (isKept : Bool)
  /-- A calculation, and so many pairs of parentheses in it. -/
  | calculation (depth : Nat)
  /-- A text of its own. -/
  | text
  deriving DecidableEq, Repr

namespace Quoting

/-- Whether a character that stands there is quoted. -/
def isQuoted : Quoting → Bool
  | plain | braces => false
  | _ => true

/-- Whether a backslash takes away what a character means. -/
def escapes (role : WordRole) (c : Char) : Quoting → Bool
  | plain | braces => true
  | double inBraces => "$\x60\x22\\".toList.contains c || inBraces && c == '\x7d'
  | quotedBraces _ => "$\x60\x22\\\x7d".toList.contains c
  | calculation _ | text => "$\x60\\".toList.contains c || !role.isText && c == '\x22'

/-- The mistake if a text ends there, if that is one. -/
def mistake? (role : WordRole) (q : Quoting) : Option ScriptError :=
  match q with
  | plain | text => none
  | calculation _ => some .unterminatedCalculation
  | _ =>
    some (if q.isQuoted && !role.isText then .unterminatedQuote else .unterminatedBrace)

end Quoting

/-- Whether a character ends a word. -/
def endsWord (c : Char) : Bool :=
  " \t\n;&|<>()".toList.contains c

/-- Whether a text is all arguments up to the quotation mark behind them; these marks stand for
nothing if there are no arguments. -/
def isQuotedArguments (cs : List Char) : Bool :=
  "$@\x22".toList.isPrefixOf cs || "$\x7b@\x7d\x22".toList.isPrefixOf cs

/-- A text with a line in front of others, if the line is the one that a text ends with. -/
def AskedText.behind? (a : AskedText) (cs : List Char) : Option (List Char) :=
  let cs := if a.strips then cs.dropWhile (· == '\t') else cs
  if cs.takeWhile (· != '\n') = a.last then some (cs.drop (a.last.length + 1)) else none

namespace Reading

/-! ### Parameters -/

/-- The parameter that a character is on its own. -/
def sign? : Char → Option Parameter
  | '@' => some .all
  | '*' => some .joined
  | '#' => some .count
  | '?' => some .status
  | '$' => some .process
  | '-' => some .options
  | '!' => some .lastJob
  | c => if c.isDigit then some (.positional (c.toNat - 48)) else none

/-- Reads the name of a variable or, in braces, the number of an argument that starts with a
character. -/
def named? (c? : Option Char) : Reading (Option Parameter) := do
  let some c := c? | return none
  if c.isDigit then
    return some (.positional ((String.ofList (← takeWhile Char.isDigit)).toNat?.getD 0))
  else if isVariableChar c then
    return some (.variable (String.ofList (← takeWhile isVariableChar)))
  else return none

/-- Reads a parameter that is not in braces. -/
def parameter? : Reading (Option Parameter) := do
  let some c ← peek? | return none
  match sign? c with
  | some p =>
    drop
    return some p
  | none => named? c

/-! ### Braces -/

/-- What stands in braces in front of the word in them. -/
inductive Heading where
  /-- The braces are over. -/
  | value (p : Parameter)
  /-- A value, whatever the word is. -/
  | only (p : Parameter)
  | length (p : Parameter)
  | provide (p : Parameter) (orEmpty : Bool) (provision : Provision)
  | trim (p : Parameter) (atEnd longest : Bool)
  | faulty
  deriving DecidableEq, Repr

/-- What a character says of a missing value. -/
def provision? : Char → Option Provision
  | '-' => some .substitute
  | '=' => some .assign
  | '?' => some .insist
  | '+' => some .replace
  | _ => none

/-- Reads what becomes of the value of a parameter, which a character says. -/
def headingFor (p : Parameter) (c? : Option Char) : Reading Heading := do
  match c? with
  | some '\x7d' => return .value p
  | some ':' =>
    let next? ← peek?
    drop
    if next? == some '\x7d' then return .only p
    else return ((next?.bind provision?).map (.provide p true)).getD .faulty
  | some c =>
    if c = '#' ∨ c = '%' then return .trim p (c == '%') (← accept c)
    else return ((provision? c).map (.provide p false)).getD .faulty
  | none => return .faulty

/-- Reads what becomes of the value of a parameter. -/
def heading (p : Parameter) : Reading Heading := do
  let c? ← peek?
  drop
  headingFor p c?

/-- Reads what stands in braces behind a number sign. It may be what is counted, or what becomes of
the number of arguments. -/
def countHeading : Reading Heading := do
  match ← named? (← peek?) with
  | some p => return if (← peek?) == some '\x7d' then .length p else .faulty
  | none => do
    let c? ← peek?
    drop
    if c? == some '\x7d' || (← peek?) != some '\x7d' then headingFor .count c?
    else return ((c?.bind sign?).map .length).getD .faulty

/-- Reads what stands in braces in front of a word. What is no parameter is passed over. -/
def anyHeading : Reading Heading := do
  let c? ← peek?
  match ← named? c? with
  | some p => heading p
  | none =>
    if c? == some '\x7d' then return .faulty
    else
      drop
      if c? == some '#' then countHeading
      else
        match c?.bind sign? with
        | some p => heading p
        | none => return .faulty

/-- Reads a reference that is written in braces. `region` reads the word in them. -/
def bracedReference (region : Quoting → Reading Word) (isQuoted : Bool) : Reading Reference := do
  let inside := if isQuoted then Quoting.quotedBraces false else .braces
  match ← anyHeading with
  | .value p => return .value p
  | .only p => do
    let _ ← region inside
    return .value p
  | .length p => do
    let _ ← region inside
    return .length p
  | .provide p orEmpty provision => return .provide p orEmpty provision (← region inside)
  | .trim p atEnd longest => return .trim p atEnd longest (← region .braces)
  | .faulty => do
    let _ ← region inside
    return .faulty

/-! ### Other references -/

/-- Reads what a dollar sign in front makes a reference, if it makes one. -/
def reference? (region : Quoting → Reading Word) (isQuoted : Bool) :
    Reading (Option Reference) := do
  match ← peek? with
  | some '(' => do
    drop
    if ← accept '(' then return some (.result (← region (.calculation 0)))
    else return some (.output (← script .enclosed))
  | some '\x7b' => do
    drop
    return some (← bracedReference region isQuoted)
  | _ => return (← parameter?).map .value

/-- A text on a line up to a grave accent, without the backslashes that stand for themselves no
more, and what is left of the text. -/
def untilAccent (isQuoted : Bool) : (line : Nat) → List Char →
    Except Fault (List Char × Nat × List Char)
  | line, [] => .error (.unterminatedAccents, line)
  | line, '\x60' :: cs => .ok ([], line, cs)
  | line, '\\' :: '\n' :: cs => untilAccent isQuoted (line + 1) cs
  | line, '\\' :: c :: cs =>
    let kept :=
      if "\\\x60$".toList.contains c || isQuoted && c == '\x22' then [c] else ['\\', c]
    (untilAccent isQuoted line cs).map fun (text, rest) ↦ (kept ++ text, rest)
  | line, c :: cs =>
    (untilAccent isQuoted (if c = '\n' then line + 1 else line) cs).map fun (text, rest) ↦
      (c :: text, rest)

/-- Reads what a grave accent in front makes a reference. Its script is a text whose lines are
numbered on their own; what follows the script in there does not count. -/
def accents (isQuoted : Bool) : Reading Reference := do
  let old ← get
  match untilAccent isQuoted old.line old.rest with
  | .error e => throw e
  | .ok (text, line, rest) => do
    set { old with rest := text, line := 1, replacements := [], asked := [] }
    let s ← script .optional
    modify fun p ↦
      { p with
        rest, line, kept? := old.kept?, replacements := old.replacements, asked := old.asked }
    return .output s

/-- Reads what stands in single quotation marks. -/
def single : Reading Word := do
  let cs := (← get).rest.takeWhile (· != '\'')
  if cs.length = (← get).rest.length then
    passAll
    fail .unterminatedQuote
  else
    modify fun p ↦
      { p with rest := p.rest.drop (cs.length + 1), line := p.line + cs.count '\n' }
    return cs.map (.char · true)

/-! ### Words -/

/-- What comes of the end of a text where a character stands: a mistake, or the parts before. -/
def atEnd (role : WordRole) (q : Quoting) (ps : Word) : Reading Word :=
  match q.mistake? role with
  | some e => fail e
  | none => return ps.reverse

/-- Passes over the line that ends a text, if it comes next. Otherwise tabs in front of the line may
not count. -/
def acceptLast : WordRole → Reading Bool
  | .text (some a) => do
    let p ← get
    match a.behind? p.rest with
    | some rest =>
      let line := p.line + (p.rest.take (p.rest.length - rest.length)).count '\n'
      set { p with rest, line }
      return true
    | none =>
      if a.strips then modify fun p ↦ { p with rest := p.rest.dropWhile (· == '\t') }
      return false
  | _ => return false

/-- Reads the parts of a word up to the end of what they stand in; `ps` are the last ones before,
the very last one first. -/
def partsFrom (role : WordRole) : (steps : Nat) → Quoting → (isLineStart : Bool) → (ps : Word) →
    Reading Word
  | 0, q, _, ps => atEnd role q ps
  | n + 1, q, isLineStart, ps => do
    if ← if isLineStart then acceptLast role else pure false then return ← atEnd role q ps
    let region (q : Quoting) : Reading Word := partsFrom role n q false []
    let goOn (q : Quoting) (more : Word) : Reading Word :=
      partsFrom role n q false (more.reverse ++ ps)
    match ← peek?, q with
    | none, q => atEnd role q ps
    | some '\x22', .double _ | some '\x7d', .braces | some '\x7d', .quotedBraces false =>
      pass
      return ps.reverse
    | some '\x22', .quotedBraces isKept =>
      pass
      goOn (.quotedBraces !isKept) []
    | some '\x22', .plain | some '\x22', .braces =>
      pass
      let nothing := if isQuotedArguments (← get).rest then [] else [.nothing]
      goOn q (nothing ++ (← region (.double (q == .braces))))
    | some '\'', .plain | some '\'', .braces =>
      pass
      goOn q (.nothing :: (← single))
    | some '(', .calculation depth =>
      pass
      goOn (.calculation (depth + 1)) [.char '(' true]
    | some ')', .calculation 0 =>
      pass
      if ← accept ')' then return ps.reverse else goOn q [.char ')' true]
    | some ')', .calculation (depth + 1) =>
      pass
      goOn (.calculation depth) [.char ')' true]
    | some '\\', q =>
      pass
      match (← get).rest with
      | [] => goOn q [.char '\\' true]
      | c :: _ =>
        pass
        goOn q (if q.escapes role c then [.char c true] else [.char '\\' true, .char c true])
    | some '\x60', q =>
      pass
      if role = .last then goOn q [.char '\x60' true]
      else goOn q [.reference (← accents q.isQuoted) q.isQuoted]
    | some '$', q =>
      pass
      match ← if role = .last then pure none else reference? region q.isQuoted with
      | some r => goOn q [.reference r q.isQuoted]
      | none => goOn q [.char '$' q.isQuoted]
    | some c, q =>
      if q = .plain ∧ endsWord c then return ps.reverse
      else
        pass
        partsFrom role n q (c == '\n') (.char c q.isQuoted :: ps)

/-- Reads a word from the start of a line or from elsewhere. -/
def parts (role : WordRole) (q : Quoting) (isLineStart : Bool) : Reading Word := do
  partsFrom role ((← get).rest.length + 1) q isLineStart []

/-! ### Texts that commands ask for -/

/-- The lines of a text up to a given one, and what is left of the text. No line feed ends the last
one of all. -/
def linesUntil (a : AskedText) : (lines : Nat) → List Char → List Char × List Char
  | 0, cs => (cs, [])
  | n + 1, cs =>
    match a.behind? cs with
    | some rest => ([], rest)
    | none =>
      let line := (if a.strips then cs.dropWhile (· == '\t') else cs).takeWhile (· != '\n')
      match cs.dropWhile (· != '\n') with
      | [] => (line, [])
      | _ :: cs =>
        let (more, rest) := linesUntil a n cs
        (line ++ '\n' :: more, rest)

/-- Reads a text that a command asks for. -/
def askedText (a : AskedText) : Reading Word := do
  if a.isQuoted then
    let cs := (← get).rest
    let (text, rest) := linesUntil a (cs.length + 1) cs
    modify fun p ↦
      { p with rest, line := p.line + (cs.take (cs.length - rest.length)).count '\n' }
    return text.map (.char · true)
  else parts (.text a) .text true

/-- Reads the texts that have been asked for. -/
def askedTexts : Reading Unit := do
  let asked := (← get).asked
  modify ({ · with asked := [] })
  asked.forM fun a ↦ do
    let w ← askedText a
    modify fun p ↦ { p with found := (a.index, w) :: p.found }

end Reading

end DocumentMath.Shell
