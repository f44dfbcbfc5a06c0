import DocumentMath.Shell.Calculation
import DocumentMath.Shell.Inner
import DocumentMath.Shell.PathPattern

/-!
# Expanding words

A word becomes the arguments it stands for. A tilde is replaced by a directory and references by
what they refer to; outside of quotation marks that is split at separators, so that a word may
become several arguments or none. All arguments of the shell, in double quotation marks, become one
argument each. What is a pattern then stands for paths.

Expanding a word is an action, since a script that is referred to is run, and a variable may get a
value.
-/

namespace DocumentMath.Shell

/-! ### Values -/

namespace State

/-- The letters of the options that are switched on. -/
def optionText (st : State) : String :=
  String.ofList ((optionNames.map (·.1)).reverse.filter fun c ↦ c > '\x01' && st.hasOption c)

/-- What stands between arguments that are one text. -/
def between (st : State) : List Char :=
  match st.valueOf? "IFS" with
  | none => [' ']
  | some separators => separators.toList.take 1

/-- The value of a parameter as one text, if it is set. -/
def parameter? (x : Context) (st : State) : Parameter → Option String
  | .positional 0 => some x.name
  | .positional (i + 1) => st.arguments.texts[i]?
  | .all | .joined => some ((String.ofList st.between).intercalate st.arguments.texts)
  | .count => some (toString st.arguments.texts.length)
  | .status => some (toString st.status)
  | .process => some (toString processNumber)
  | .lastJob => st.lastJob?.map toString
  | .options => some st.optionText
  | .variable name => st.valueOf? name

end State

/-- What a parameter is called. -/
def Parameter.name : Parameter → String
  | .positional i => toString i
  | .all => "@"
  | .joined => "*"
  | .count => "#"
  | .status => "?"
  | .process => "$"
  | .lastJob => "!"
  | .options => "-"
  | .variable name => name

/-- Whether a parameter is all arguments. -/
def Parameter.isAllArguments : Parameter → Bool
  | .all | .joined => true
  | _ => false

/-- The text of marks. -/
def textOf (ms : List Mark) : String :=
  String.ofList (ms.map (·.1))

/-! ### Tildes -/

/-- The directory that a tilde and a name stand for. -/
def homeOf? (st : State) (name : String) : Option String :=
  if name.isEmpty then st.valueOf? "HOME"
  else if name = "root" then some "/root"
  else none

/-- A tilde and the name behind it, at the start of a word, and how many parts they take. Colons may
end the name. -/
def tildeAt? (atColons : Bool) : Word → Option (String × Nat)
  | .char '~' false :: w =>
    let isNamePart (p : Part) : Bool :=
      p.plain?.any fun c ↦ c != '/' && !(atColons && c == ':')
    let name := w.takeWhile isNamePart
    match w.drop name.length with
    | [] | .char _ false :: _ => some (String.ofList (name.filterMap Part.char?), name.length + 1)
    | _ => none
  | _ => none

/-- A word in which tildes have been replaced, once `skip` more parts have been passed over: at the
start and maybe behind colons. -/
def replaceTildes (st : State) (atColons : Bool) : (atStart : Bool) → (skip : Nat) → Word → Word
  | _, _, [] => []
  | _, skip + 1, _ :: w => replaceTildes st atColons false skip w
  | atStart, 0, p :: w =>
    let found? := if atStart then tildeAt? atColons (p :: w) else none
    match found?.bind fun (name, length) ↦ (homeOf? st name).map (·, length) with
    | some (home, length) =>
      .nothing :: (home.toList.map (.char · true) ++
        replaceTildes st atColons false (length - 1) w)
    | none => p :: replaceTildes st atColons (atColons && p.plain? == some ':') 0 w

/-! ### Words -/

/-- How a word is expanded. -/
structure Mode where
  /-- Whether what is referred to is split. -/
  splits : Bool
  /-- Whether the word stands in a reference, so that the word itself is split too. -/
  isInner : Bool
  deriving DecidableEq, Repr

/-- What expands the words in references. -/
abbrev WordExpander := Mode → Word → Action (List Piece)

namespace Expansion

/-- The pieces of a text, which is split unless it is quoted or not to be split. -/
def piecesOf (m : Mode) (quoted : Bool) (text : String) : List Piece :=
  if m.splits && !quoted then [.split text.toList] else [.whole (marksOf quoted text.toList)]

/-- All arguments as one text. Unless they are to be one argument, boundaries are between them. -/
def argumentText (m : Mode) (quoted : Bool) (p : Parameter) (st : State) : List Char :=
  let between := if m.splits && (!quoted || p == .all) then [Piece.boundary] else st.between
  between.intercalate (st.arguments.texts.map String.toList)

/-- The arguments in a text with boundaries. -/
def splitArguments (cs : List Char) : List (List Char) :=
  cs.foldr (fun c parts ↦
    if c = Piece.boundary then [] :: parts
    else
      match parts with
      | [] => [[c]]
      | p :: ps => (c :: p) :: ps) [[]]

/-- The pieces of all arguments, or of what has become of them. -/
def argumentPieces (m : Mode) (quoted : Bool) (p : Parameter) (cs : List Char) (st : State) :
    List Piece :=
  if st.arguments.texts.isEmpty then []
  else if m.splits && quoted && p == .all then [.quotedArguments (splitArguments cs)]
  else if m.splits && !quoted then [.split cs]
  else [.whole (marksOf quoted cs)]

/-- The pieces of a parameter. -/
def parameterPieces (x : Context) (m : Mode) (quoted : Bool) (p : Parameter) :
    Action (List Piece) := do
  let st ← get
  if p.isAllArguments then return argumentPieces m quoted p (argumentText m quoted p st) st
  else
    match st.parameter? x p with
    | some v => return piecesOf m quoted v
    | none =>
      if st.hasOption 'u' then Action.die x (p.name ++ ": parameter not set")
      else return []

/-- A word in a reference, in which tildes have been replaced unless they are quoted. -/
def innerWord (quoted : Bool) (w : Word) : Action Word := do
  let st ← get
  return if quoted then w else replaceTildes st false true 0 w

/-- A word in a reference as one text, which is not split. -/
def innerMarks (expand : WordExpander) (quoted : Bool) (w : Word) : Action (List Mark) := do
  return (← expand ⟨false, true⟩ (← innerWord quoted w)).flatMap Piece.marks

/-- Ends the shell if a parameter is not set and has to be. -/
def checkSet (x : Context) (p : Parameter) : Action Unit := do
  let st ← get
  if (st.parameter? x p).isNone && st.hasOption 'u' && !p.isAllArguments then
    Action.die x (p.name ++ ": parameter not set")

/-- The pieces of a value of which something is left out, if there is a value. -/
def trimmedPieces (x : Context) (expand : WordExpander) (m : Mode) (quoted : Bool)
    (p : Parameter) (atEnd longest : Bool) (pattern : Word) : Action (List Piece) := do
  checkSet x p
  let st ← get
  match st.parameter? x p with
  | none => return piecesOf m quoted ""
  | some value =>
    let ms ← innerMarks expand false pattern
    if p.isAllArguments then
      let cs := trimMatch atEnd longest ms (argumentText m quoted p st)
      return argumentPieces m quoted p cs st
    else return piecesOf m quoted (String.ofList (trimMatch atEnd longest ms value.toList))

/-- The pieces of a value, or of what a word makes of it. -/
def providedPieces (x : Context) (expand : WordExpander) (m : Mode) (quoted : Bool)
    (p : Parameter) (orEmpty : Bool) (provision : Provision) (w : Word) :
    Action (List Piece) := do
  let isMissing := ((← get).parameter? x p).all fun v ↦ orEmpty && v.isEmpty
  match provision, isMissing with
  | .replace, true => return []
  | .substitute, true | .replace, false =>
    expand { m with isInner := true } (← innerWord quoted w)
  | .assign, true =>
    let value := textOf (← innerMarks expand quoted w)
    if isVariableName p.name.toList then
      Action.assign x p.name value
      return piecesOf m quoted value
    else Action.die x (p.name ++ ": bad variable name")
  | .insist, true =>
    let message := textOf (← innerMarks expand quoted w)
    Action.die x
      (p.name ++ ": " ++
        if !message.isEmpty then message
        else if orEmpty then "parameter not set or null"
        else "parameter not set")
  | _, false => parameterPieces x m quoted p

/-- The pieces of the result of a calculation. -/
def resultPieces (x : Context) (expand : WordExpander) (m : Mode) (quoted : Bool)
    (calculation : Word) : Action (List Piece) := do
  let text := textOf (← innerMarks expand true calculation)
  let st ← get
  let known : Calculation.Variables :=
    ⟨fun name ↦ (st.valueOf? name).getD "", fun name ↦ (st.find name).isFixed⟩
  match calculate known text with
  | .ok (n, assigned) => do
    assigned.reverse.forM fun (name, k) ↦ Action.assign x name (toString k)
    return piecesOf m quoted (toString n)
  | .error mistake => Action.die x (mistake.message text)

/-- The pieces of a reference. -/
def referencePieces (x : Context) (expand : WordExpander) (m : Mode) (quoted : Bool) :
    Reference → Action (List Piece)
  | .value p => parameterPieces x m quoted p
  | .length p => do
    checkSet x p
    return piecesOf m quoted (toString (((← get).parameter? x p).getD "").length)
  | .provide p orEmpty provision w => providedPieces x expand m quoted p orEmpty provision w
  | .trim p atEnd longest pattern => trimmedPieces x expand m quoted p atEnd longest pattern
  | .output script => do
    let text ← outputOf x script
    obeySignals x
    return piecesOf m quoted text
  | .result calculation => resultPieces x expand m quoted calculation
  | .faulty => Action.die x "Bad substitution"

/-- The pieces of a part, or of several characters. -/
def partPieces (x : Context) (expand : WordExpander) (m : Mode) : List Part → Action (List Piece)
  | [.reference r quoted] => referencePieces x expand m quoted r
  | [.nothing] => return [.whole []]
  | ps =>
    let ms := ps.filterMap fun
      | .char c quoted => some (c, quoted)
      | _ => none
    if m.splits && m.isInner && ps.all (·.plain?.isSome) then return [.split (ms.map (·.1))]
    else return [.whole ms]

/-- The pieces of a word, in which words are nested at most so many levels deep. -/
def wordPieces (x : Context) : (levels : Nat) → WordExpander
  | 0, _, _ => return []
  | levels + 1, m, w => do
    let runs := w.splitBy fun a b ↦ a.plain?.isSome && b.plain?.isSome
    return (← runs.mapM (partPieces x (wordPieces x levels) m)).flatten

/-- How many levels of words there are in a word. -/
def wordLevels : Nat := 100

end Expansion

namespace Word

/-- The arguments a word becomes. -/
def arguments (x : Context) (w : Word) : Action (List String) := do
  let w := replaceTildes (← get) false true 0 w
  let pieces ← Expansion.wordPieces x Expansion.wordLevels ⟨true, false⟩ w
  let st ← get
  let fields := fieldsOf st.separators none pieces
  if st.hasOption 'f' then return fields.map textOf
  else return fields.flatMap (PathPattern.expand st.files)

/-- A word as one text, in which characters are marked. -/
def marks (x : Context) (w : Word) : Action (List Mark) := do
  let w := replaceTildes (← get) false true 0 w
  return (← Expansion.wordPieces x Expansion.wordLevels ⟨false, false⟩ w).flatMap Piece.marks

/-- A word as one text. -/
def text (x : Context) (w : Word) : Action String := do
  return textOf (← w.marks x)

/-- A word as the value of a variable, in which tildes may stand behind colons too. -/
def value (x : Context) (w : Word) : Action String := do
  let w := replaceTildes (← get) true true 0 w
  return textOf
    ((← Expansion.wordPieces x Expansion.wordLevels ⟨false, false⟩ w).flatMap Piece.marks)

/-- A word that says which value a variable gets, as one argument; or any other word. -/
def declaration (x : Context) (w : Word) : Action (List String) := do
  match w.assignment? with
  | some (name, value) => return [name ++ "=" ++ (← Word.value x value)]
  | none => w.arguments x

end Word

end DocumentMath.Shell
