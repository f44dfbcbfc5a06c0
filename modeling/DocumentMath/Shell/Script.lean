/-!
# Shell scripts

A script is a list of pipelines, each of which is run always or only if the one before it has
succeeded or failed. A pipeline is a list of statements: simple commands, which are words, and
statements that are made of other scripts. Statements know the line they start on.

A word is a list of parts: characters, and references to what is known only when a command is run,
which are the values of parameters, the output of other scripts, and results of calculations. A
quoted part stands for itself.
-/

namespace DocumentMath.Shell

/-! ### References -/

/-- What a reference may be to. -/
inductive Parameter where
  /-- The name of the shell, or one of its arguments. -/
  | positional (index : Nat)
  /-- All arguments. -/
  | all
  /-- All arguments, as one text where they are quoted. -/
  | joined
  /-- The number of arguments. -/
  | count
  /-- The status of the last command. -/
  | status
  /-- The number of the shell's process. -/
  | process
  /-- The number of the last process that nobody waits for. -/
  | lastJob
  /-- The letters of the options that are switched on. -/
  | options
  | variable (name : String)
  deriving DecidableEq, Repr

/-- What happens where a value is missing or not. -/
inductive Provision where
  /-- A word stands for a missing value. -/
  | substitute
  /-- A word becomes the missing value. -/
  | assign
  /-- A missing value ends the shell. -/
  | insist
  /-- A word stands for a value that is not missing. -/
  | replace
  deriving DecidableEq, Repr

/-! ### Statements -/

/-- What a redirection does with a stream. -/
inductive RedirectKind where
  | read
  | write
  /-- Writes even to a file that is to be kept. -/
  | clobber
  | append
  | readWrite
  /-- Makes it the same as another stream. -/
  | copy
  /-- Lets it read a text that stands in the script. -/
  | text
  deriving DecidableEq, Repr

/-- When a pipeline is run. -/
inductive Joint where
  | always
  | onSuccess
  | onFailure
  deriving DecidableEq, Repr

mutual

/-- A part of a word. -/
inductive Part where
  | char (c : Char) (quoted : Bool)
  /-- Quotation marks, which make an argument even of nothing. -/
  | nothing
  | reference (r : Reference) (quoted : Bool)

/-- What is known only when a command is run. -/
inductive Reference where
  | value (p : Parameter)
  /-- The number of characters of a value. -/
  | length (p : Parameter)
  /-- A value, or what a word makes of it. An empty value may count as missing. -/
  | provide (p : Parameter) (orEmpty : Bool) (provision : Provision) (word : List Part)
  /-- A value without the shortest or the longest text at one end that matches a pattern. -/
  | trim (p : Parameter) (atEnd longest : Bool) (pattern : List Part)
  /-- What a script writes. -/
  | output (script : List Link)
  /-- The result of a calculation. -/
  | result (calculation : List Part)
  /-- Nothing that a reference can be to. -/
  | faulty

/-- A redirection of the stream with a number. -/
structure Redirection where
  stream : Nat
  kind : RedirectKind
  target : List Part

/-- A command that is written as words, with the line it stands on. -/
structure SimpleCommand where
  line : Nat
  /-- The variables that are set. -/
  assignments : List (String × List Part)
  words : List (List Part)
  redirections : List Redirection

/-- A statement. -/
inductive Statement where
  | simple (c : SimpleCommand)
  | group (body : List Link)
  /-- A script for a shell of its own. -/
  | apart (line : Nat) (body : List Link)
  /-- A script for a shell of its own that nobody waits for. -/
  | aside (body : List Link)
  | branch (condition body otherwise : List Link)
  /-- Repeats a script as long as the condition succeeds, or until it does. -/
  | loop (untilSuccess : Bool) (condition body : List Link)
  /-- Runs a script for each of several words. -/
  | each (line : Nat) (name : String) (words : List (List Part)) (body : List Link)
  /-- Runs the first script of which a pattern matches a word. -/
  | select (line : Nat) (word : List Part) (arms : List (List (List Part) × List Link))
  | define (name : String) (body : Statement)
  | redirected (line : Nat) (body : Statement) (redirections : List Redirection)

/-- A pipeline and when it is run. -/
inductive Link where
  /-- The pipeline may be negated. -/
  | pipeline (joint : Joint) (negated : Bool) (stages : List Statement)

end

/-- A word of a command, before it is expanded. -/
abbrev Word := List Part

/-- A script. -/
abbrev Script := List Link

namespace Link

/-- When the pipeline is run. -/
def joint : Link → Joint
  | pipeline joint _ _ => joint

/-- A statement that is always run. -/
def alone (s : Statement) : Link :=
  pipeline .always false [s]

end Link

/-! ### Words -/

/-- Whether a character may stand in the name of a variable. -/
def isVariableChar (c : Char) : Bool :=
  c.isAlphanum || c == '_'

/-- Whether a text is the name of a variable. -/
def isVariableName (cs : List Char) : Bool :=
  cs.all isVariableChar && cs.head?.any (!·.isDigit)

/-- The character that a part is, unless it is quoted. -/
def Part.plain? : Part → Option Char
  | .char c false => some c
  | _ => none

/-- The character that a part is. -/
def Part.char? : Part → Option Char
  | .char c _ => some c
  | _ => none

/-- The text of a word in which nothing is quoted and nothing is referred to. -/
def Word.literal? (w : Word) : Option (List Char) :=
  w.mapM Part.plain?

/-- The variable that a word sets, and its value. -/
def Word.assignment? (w : Word) : Option (String × Word) :=
  let isNamePart (p : Part) : Bool := p.plain?.any isVariableChar
  match Word.literal? (w.takeWhile isNamePart), w.dropWhile isNamePart with
  | some name, .char '=' false :: value =>
    if isVariableName name then some (String.ofList name, value) else none
  | _, _ => none

end DocumentMath.Shell
