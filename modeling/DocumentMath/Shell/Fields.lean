import DocumentMath.Shell.Pattern

/-!
# Fields

An expanded word is a list of pieces, some of which are split at separators. What is between two
separators is a field. Blanks only separate: several of them, and another separator among them,
count as one. Any other separator ends a field, even an empty one.

A piece may hold several arguments, which are separated by a character that cannot be in them. The
number of fields may be limited; the last one then holds all that is left.
-/

namespace DocumentMath.Shell

/-- A piece of an expanded word. -/
inductive Piece where
  /-- Characters that belong to one field; quotation marks stand for none of them. -/
  | whole (ms : List Mark)
  /-- Characters that separators split. -/
  | split (cs : List Char)
  /-- Quoted arguments, one after the other. -/
  | quotedArguments (arguments : List (List Char))
  deriving DecidableEq, Repr

namespace Piece

/-- What separates arguments. -/
def boundary : Char := '\x00'

/-- The marks of a piece. -/
def marks : Piece → List Mark
  | whole ms => ms
  | split cs => marksOf false (cs.filter (· != boundary))
  | quotedArguments arguments => marksOf true arguments.flatten

end Piece

/-- What separates fields unless something else is said. -/
def defaultSeparators : List Char := [' ', '\t', '\n']

/-- A word that is being split. -/
structure Splitting where
  complete : List (List Mark)
  /-- The field that may still go on, if it has begun, last mark first. -/
  last? : Option (List Mark)
  /-- Whether blanks have just ended a field. -/
  afterBlank : Bool
  /-- Whether the last piece with separators was one of quoted arguments. -/
  afterArguments : Bool
  /-- How many fields may still begin, if they are limited. -/
  room? : Option Nat
  /-- What counts of the last field, unless all of it does. -/
  kept? : Option (List Mark)
  deriving DecidableEq, Repr

namespace Splitting

/-- Nothing has been split yet. -/
def start (room? : Option Nat) : Splitting :=
  ⟨[], none, false, false, room?, none⟩

/-- Marks that belong to the last field. -/
def append (ms : List Mark) (s : Splitting) : Splitting :=
  { s with last? := some (ms.reverse ++ s.last?.getD []) }

/-- The last field ends. -/
def close (s : Splitting) : Splitting :=
  { s with complete := s.complete ++ [(s.last?.getD []).reverse], last? := none }

/-- A character once no other field may begin. It counts unless there are only blanks behind it, and
at most one other separator among them. -/
def addToLast (isSeparator isBlank : Bool) (m : Mark) (s : Splitting) : Splitting :=
  if isBlank then { s.append [m] with kept? := s.kept?.or (some (s.last?.getD [])) }
  else
    { s.append [m] with
      kept? := if isSeparator && s.afterBlank then s.kept? else none
      afterBlank := false }

/-- A separator. The last field that may begin goes on behind it. -/
def separate (m : Mark) (s : Splitting) : Splitting :=
  if s.last?.isNone && s.afterBlank then { s with afterBlank := false }
  else if s.room? = some 1 then
    { s.append [m] with room? := some 0, kept? := some (s.last?.getD []) }
  else { s.close with room? := s.room?.map (· - 1) }

/-- A character of a piece with separators. -/
def add (separators : List Char) (ofArguments : Bool) (s : Splitting) (m : Mark) : Splitting :=
  let isBoundary := m.1 == Piece.boundary
  let isSeparator := isBoundary || (!ofArguments && separators.contains m.1)
  let isBlank := isSeparator && (isBoundary || defaultSeparators.contains m.1)
  if s.room? = some 0 then s.addToLast isSeparator isBlank m
  else if s.afterBlank then
    if isSeparator then { s with last? := none, afterBlank := isBlank }
    else { s with last? := some [m], afterBlank := false }
  else if isSeparator then
    separate m { s with afterBlank := isBlank && !s.afterArguments && !ofArguments }
  else s.append [m]

/-- A piece. -/
def addPiece (separators : List Char) (s : Splitting) : Piece → Splitting
  | .whole ms => s.append ms
  | .split cs =>
    { (marksOf false cs).foldl (add separators false) { s with afterBlank := false } with
      afterArguments := false }
  | .quotedArguments arguments =>
    { (marksOf true ([Piece.boundary].intercalate arguments)).foldl (add separators true)
        { s with afterBlank := false, afterArguments := true } with
      afterArguments := true }

/-- The fields. -/
def fields (s : Splitting) : List (List Mark) :=
  let last? := (s.kept?.or s.last?).map List.reverse
  s.complete ++
    if s.afterArguments then [last?.getD []]
    else if s.kept? = some [] then []
    else last?.toList

end Splitting

/-- The fields of an expanded word, of which there may be at most so many. -/
def fieldsOf (separators : List Char) (room? : Option Nat) (pieces : List Piece) :
    List (List Mark) :=
  (pieces.foldl (Splitting.addPiece separators) (.start room?)).fields

end DocumentMath.Shell
