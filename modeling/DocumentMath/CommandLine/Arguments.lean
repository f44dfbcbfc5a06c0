import DocumentMath.CommandLine.Description

/-!
# Arguments

The arguments of a command are options and operands in any order. An option is written with two
hyphens and its name, or with one hyphen and its letter; its value follows as the next argument or
behind an equals sign, and behind a letter also directly. Behind `--` there are only operands, and
a lone `-` is an operand or a value.

Arguments are understood from left to right, each as far as its value is concerned before the next
one is looked at. So of two mistakes the first one counts, and help is shown only if there is none
in front of what asks for it.
-/

namespace DocumentMath

/-- Why arguments are not understood. -/
inductive UsageError where
  | unknownCommand (text : String)
  | missingCommand
  | unknownOption (text : String)
  | missingValue (option : String)
  | unexpectedValue (option : String)
  | repeated (option : String)
  | invalidValue (option value : String)
  | missingOperand
  | extraOperand (text : String)
  /-- Help is asked for, perhaps in detail. -/
  | helpWanted (detailed : Bool)
  deriving DecidableEq, Repr

/-- The error as a message. -/
def UsageError.message : UsageError → String
  | unknownCommand text => "unrecognized subcommand '" ++ text ++ "'"
  | missingCommand => "a subcommand is required"
  | unknownOption text => "unexpected argument '" ++ text ++ "' found"
  | missingValue option => "a value is required for '" ++ option ++ "' but none was supplied"
  | unexpectedValue option => "unexpected value for '" ++ option ++ "' found"
  | repeated option => "the argument '" ++ option ++ "' cannot be used multiple times"
  | invalidValue option value => "invalid value '" ++ value ++ "' for '" ++ option ++ "'"
  | missingOperand => "a required argument was not provided"
  | extraOperand text => "unexpected argument '" ++ text ++ "' found"
  | helpWanted _ => "help"

/-- An argument that has been understood. -/
inductive Argument where
  | flag (name : String)
  | value (name value : String)
  | operand (text : String)
  deriving DecidableEq, Repr

namespace Argument

/-! ### What is given -/

/-- Whether a flag is given. -/
def hasFlag (name : String) (arguments : List Argument) : Bool :=
  arguments.contains (flag name)

/-- The values given for an option. -/
def values (name : String) (arguments : List Argument) : List String :=
  arguments.filterMap fun
    | value n v => if n = name then some v else none
    | _ => none

/-- The value given for an option, read as what it is. -/
def valueAs? {α : Type} (read : String → Option α) (name : String) (arguments : List Argument) :
    Option α :=
  (values name arguments).head?.bind read

/-- The operands. -/
def operands (arguments : List Argument) : List String :=
  arguments.filterMap fun
    | operand text => some text
    | _ => none

/-- The operand, which has to be given. -/
def neededOperand (arguments : List Argument) : Except UsageError String :=
  match operands arguments with
  | [] => .error .missingOperand
  | text :: _ => .ok text

/-! ### What an argument looks like -/

/-- What an argument looks like. -/
inductive Shape where
  /-- Two hyphens with nothing behind them. -/
  | stop
  | plain (text : String)
  /-- Two hyphens and a name, with the text behind an equals sign. -/
  | long (name : String) (value? : Option String)
  /-- One hyphen and a letter, with the text behind it. -/
  | short (letter : Char) (rest : String)
  deriving DecidableEq, Repr

/-- The shape of an argument. -/
def shape (text : String) : Shape :=
  match text.toList with
  | ['-', '-'] => .stop
  | '-' :: '-' :: cs =>
    let name := cs.takeWhile (· != '=')
    .long (String.ofList name)
      (if name.length < cs.length then some (String.ofList (cs.drop (name.length + 1))) else none)
  | '-' :: c :: cs => .short c (String.ofList cs)
  | _ => .plain text

/-- Whether an argument may be the value of an option in front of it. -/
def isValueFor (v : ValueDescription) (text : String) : Bool :=
  v.allowsHyphen ||
    match shape text with
    | .plain _ => true
    | _ => false

/-- The value written behind a letter; an equals sign does not belong to it. -/
def attachedValue (rest : String) : Option String :=
  match rest.toList with
  | [] => none
  | '=' :: cs => some (String.ofList cs)
  | cs => some (String.ofList cs)

/-- The option an argument names, and the value that comes with it. -/
def optionOf? (c : CommandDescription) : Shape → Option (OptionDescription × Option String)
  | .long name value? => (c.option? name).map (·, value?)
  | .short letter rest => (c.lettered? letter).map (·, attachedValue rest)
  | _ => none

/-! ### Understanding arguments -/

/-- Takes a flag, unless it is given already. -/
def addFlag (o : OptionDescription) (given : List Argument) : Except UsageError (List Argument) :=
  if hasFlag o.name given then .error (.repeated o.name) else .ok (given ++ [flag o.name])

/-- Takes a value for an option, unless it is none or the option is given already. -/
def addValue (o : OptionDescription) (v : ValueDescription) (text : String)
    (given : List Argument) : Except UsageError (List Argument) :=
  if !o.repeatable && !(values o.name given).isEmpty then .error (.repeated o.name)
  else if v.accepts text then .ok (given ++ [value o.name text])
  else .error (.invalidValue o.name text)

/-- Takes an operand, unless the command has none or it is given already. -/
def addOperand (c : CommandDescription) (text : String) (given : List Argument) :
    Except UsageError (List Argument) :=
  match c.operand?, operands given with
  | some o, [] =>
    if o.value.accepts text then .ok (given ++ [operand text])
    else .error (.invalidValue o.shown text)
  | _, _ => .error (.extraOperand text)

/-- Whether an argument asks for help, and if so, whether in detail. -/
def asksForHelp? : Shape → Option Bool
  | .long "help" none => some true
  | .short 'h' _ => some false
  | _ => none

/-- Understands arguments behind those that are given. -/
def readFrom (c : CommandDescription) : (operandsOnly : Bool) → (given : List Argument) →
    List String → Except UsageError (List Argument)
  | _, given, [] => .ok given
  | true, given, text :: rest => do readFrom c true (← addOperand c text given) rest
  | false, given, text :: rest =>
    match shape text with
    | .stop => readFrom c true given rest
    | .plain text => do readFrom c false (← addOperand c text given) rest
    | s =>
      match asksForHelp? s, optionOf? c s with
      | some detailed, _ => .error (.helpWanted detailed)
      | none, none => .error (.unknownOption text)
      | none, some (o, attached?) =>
        match o.value?, attached?, rest with
        | none, none, rest => do readFrom c false (← addFlag o given) rest
        | none, some _, _ => .error (.unexpectedValue text)
        | some v, some attached, rest => do
          readFrom c false (← addValue o v attached given) rest
        | some v, none, next :: rest =>
          if isValueFor v next then do readFrom c false (← addValue o v next given) rest
          else .error (.missingValue text)
        | some _, none, [] => .error (.missingValue text)

/-- Understands the arguments of a command. -/
def read (c : CommandDescription) (texts : List String) : Except UsageError (List Argument) :=
  readFrom c false [] texts

end Argument

end DocumentMath
