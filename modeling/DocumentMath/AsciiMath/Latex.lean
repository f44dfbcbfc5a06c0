import DocumentMath.AsciiMath.Parser

/-!
# AsciiMath as LaTeX

An expression is written piece by piece. A piece that starts with a letter is kept apart by a blank
from a control word in front of it, since the two would otherwise read as one longer control word
(`push`). An argument of a command, and a script, loses one pair of brackets around it; a script
is put in braces unless it is a single character.
-/

namespace DocumentMath.AsciiMath

/-! ### Writing pieces -/

/-- Whether a character is a letter of ASCII. -/
def isLetter (c : Char) : Bool :=
  ('a' ≤ c && c ≤ 'z') || ('A' ≤ c && c ≤ 'Z')

/-- Whether a text ends with a control word: letters after a single backslash. -/
def endsWithControlWord (cs : List Char) : Bool :=
  match cs.reverse.takeWhile isLetter, cs.reverse.dropWhile isLetter with
  | [], _ => false
  | _, '\\' :: '\\' :: _ => false
  | _, '\\' :: _ => true
  | _, _ => false

/-- Adds a piece to what is written so far. -/
def push (out piece : List Char) : List Char :=
  match piece with
  | [] => out
  | c :: _ =>
    if isLetter c && endsWithControlWord out then out ++ ' ' :: piece else out ++ piece

/-- A text in braces. -/
def braced (cs : List Char) : List Char :=
  '\x7b' :: (cs ++ ['\x7d'])

/-- A script argument: a single character stands by itself, all else in braces. -/
def scriptArgument (cs : List Char) : List Char :=
  match cs with
  | [c] => [c]
  | _ => braced cs

/-- A delimiter after a sizing command; an invisible one is written as a point. -/
def delimiter (latex : List Char) : List Char :=
  if latex.isEmpty then ['.'] else latex

/-- A sized opening delimiter. -/
def leftDelimiter (latex : List Char) : List Char :=
  "\\left".toList ++ delimiter latex

/-- A sized closing delimiter. -/
def rightDelimiter (latex : List Char) : List Char :=
  "\\right".toList ++ delimiter latex

/-- An environment around a body. -/
def environment (name : String) (body : List Char) : List Char :=
  "\\begin".toList ++ braced name.toList ++ ' ' :: (body ++ " \\end".toList ++ braced name.toList)

/-- A matrix with the given brackets; parentheses and square brackets have environments of their
own. -/
def matrixLatex (opening closing body : List Char) : List Char :=
  if opening = ['('] ∧ closing = [')'] then environment "pmatrix" body
  else if opening = ['['] ∧ closing = [']'] then environment "bmatrix" body
  else leftDelimiter opening ++ environment "matrix" body ++ rightDelimiter closing

/-- A command applied to its written argument. -/
def UnaryCommand.latex (argument : List Char) : UnaryCommand → List Char
  | command word => word ++ braced argument
  | delimited opening closing =>
    "\\left".toList ++ opening ++ argument ++ "\\right".toList ++ closing

/-- A command applied to its written arguments. -/
def BinaryCommand.latex (first second : List Char) : BinaryCommand → List Char
  | command word => word ++ braced first ++ braced second
  | root => "\\sqrt[".toList ++ first ++ ']' :: braced second
  | color => braced ("\\color".toList ++ braced first ++ second)

/-- Whether brackets around an argument are dropped. -/
def isDroppable (opening : List Char) (closing? : Option (List Char)) : Bool :=
  closing?.isSome && (opening == ['('] || opening == ['['] || opening == ['\\', '\x7b'])

/-- Whether a group shows a bracket on either side. -/
def isVisible (opening : List Char) (closing? : Option (List Char)) : Bool :=
  !opening.isEmpty || closing?.any (!·.isEmpty)

/-! ### Writing expressions -/

mutual

/-- Adds an expression to what is written so far. With `bare`, a group in droppable brackets loses
them. -/
def emit (bare : Bool) : Expr → List Char → List Char
  | .atom text, out => push out text
  | .verbatim raw, out => push out ("\\text".toList ++ braced raw)
  | .group opening closing? body, out =>
    if isVisible opening closing? && !(bare && isDroppable opening closing?) then
      push (emitAll body (push out (leftDelimiter opening))) (rightDelimiter (closing?.getD []))
    else emitAll body out
  | .matrix opening closing rows, out =>
    push out (matrixLatex opening closing (" \\\\ ".toList.intercalate (rowTexts rows)))
  | .unary command argument, out => push out (command.latex (emit true argument []))
  | .textual latex (.verbatim raw), out => push out (latex ++ braced raw)
  | .textual latex argument, out => push out (latex ++ braced (emit true argument []))
  | .binary command first second, out =>
    push out (command.latex (emit true first []) (emit true second []))
  | .script base sub? sup?, out =>
    emitScript '^' sup? (emitScript '_' sub? (emit false base out))
  | .fraction numerator denominator, out =>
    push out ("\\frac".toList ++ braced (emit true numerator [])
      ++ braced (emit true denominator []))

/-- Adds a script, if there is one. -/
def emitScript (mark : Char) : Option Expr → List Char → List Char
  | none, out => out
  | some e, out => push out (mark :: scriptArgument (emit true e []))

/-- Adds expressions one after the other. -/
def emitAll : List Expr → List Char → List Char
  | [], out => out
  | e :: es, out => emitAll es (emit false e out)

/-- The written rows of a matrix. -/
def rowTexts : List (List (List Expr)) → List (List Char)
  | [] => []
  | row :: rows => " & ".toList.intercalate (cellTexts row) :: rowTexts rows

/-- The written cells of a row. -/
def cellTexts : List (List Expr) → List (List Char)
  | [] => []
  | cell :: cells => emitAll cell [] :: cellTexts cells

end

/-- The LaTeX of a piece of AsciiMath. -/
def toLatex (text : List Char) : List Char :=
  emitAll (parse text) []

end DocumentMath.AsciiMath
