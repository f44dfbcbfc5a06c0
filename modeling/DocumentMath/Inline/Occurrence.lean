import DocumentMath.Inline.Written
import DocumentMath.Text.Utf8

/-!
# Finding inline equations in a text

`occurrences` lists the inline equations of a text in order, each with its dialect and with the
bytes it covers in the UTF-8 form of the text. `scan` is the same behind a cheap test: a text
without a colon, or without any of the names, cannot hold an occurrence and is not searched.
-/

namespace DocumentMath.Inline

/-- An inline equation found in a text. -/
structure Occurrence where
  /-- The name it is opened with. -/
  name : MacroName
  /-- The notation of its payload. -/
  dialect : Dialect
  /-- What stands between its brackets. -/
  payload : String
  /-- Its list of substitutions, unless that is empty. -/
  subs : Option String
  /-- Whether a backslash escapes it. -/
  escaped : Bool
  /-- The number of bytes in front of it. -/
  start : Nat
  /-- The number of bytes up to and with its closing bracket. -/
  stop : Nat
  deriving DecidableEq, Repr

/-- A payload that is blank to its end has nothing to typeset. -/
def Occurrence.isBlank (o : Occurrence) : Bool :=
  (Text.trimEnd o.payload.toList).isEmpty

/-- The occurrence that a written equation is, with `offset` bytes in front of it. -/
def Written.occurrence (default : Dialect) (offset : Nat) (w : Written) : Occurrence where
  name := w.name
  dialect := w.name.dialect default
  payload := String.ofList w.payload
  subs := if w.subs.isEmpty then none else some (String.ofList w.subs)
  escaped := w.escaped
  start := offset
  stop := offset + Text.utf8Length w.source

/-- The occurrences among pieces that have `offset` bytes in front of them. -/
def occurrencesOf (default : Dialect) : (offset : Nat) → List Piece → List Occurrence
  | _, [] => []
  | offset, .plain c :: ps => occurrencesOf default (offset + c.utf8Size) ps
  | offset, .equation w :: ps =>
    w.occurrence default offset :: occurrencesOf default (offset + Text.utf8Length w.source) ps

/-- The inline equations of a text, from left to right. -/
def occurrences (default : Dialect) (text : String) : List Occurrence :=
  occurrencesOf default 0 (pieces text.toList)

/-- A text without a colon, or without any of the names, holds no inline equation. -/
def mayContain (text : String) : Bool :=
  text.toList.contains ':' && MacroName.all.any fun name ↦ Text.occursIn name.chars text.toList

/-- The inline equations of a text, which is searched only if it may hold one. -/
def scan (default : Dialect) (text : String) : List Occurrence :=
  if mayContain text then occurrences default text else []

end DocumentMath.Inline
