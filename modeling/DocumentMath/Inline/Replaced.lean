import DocumentMath.Inline.Occurrence

/-!
# Replacing the inline equations of a text

`replaceEquations` goes over the pieces of a text. Plain characters stay. An escaped occurrence
loses its backslash and is otherwise kept; an occurrence with a blank payload is kept as it is
written; for every other occurrence the caller says what to put in its place, or that it is to stay.
What is put in is not searched again. The caller's answer may be an effect that fails, and a failure
ends the replacing.
-/

namespace DocumentMath.Inline

/-- A text in which inline equations have been replaced. -/
structure Replaced where
  /-- The new text. -/
  text : String
  /-- Whether any occurrence was replaced or lost its backslash. -/
  modified : Bool
  /-- The number of occurrences that lost their backslash. -/
  escaped : Nat
  deriving DecidableEq, Repr

variable {m : Type → Type} [Monad m]

/-- What becomes of one occurrence: its new text, or nothing if it stays as it is written. -/
def replacement? (replace : Occurrence → m (Option String)) (w : Written) (o : Occurrence) :
    m (Option (List Char)) :=
  if w.escaped then pure (some w.body)
  else if o.isBlank then pure none
  else return (← replace o).map String.toList

/-- Replaces the equations among pieces that have `offset` bytes in front of them. -/
def replacePieces (default : Dialect) (replace : Occurrence → m (Option String)) :
    (offset : Nat) → List Piece → m (List Char × Bool × Nat)
  | _, [] => pure ([], false, 0)
  | offset, .plain c :: ps => do
    let (text, modified, escaped) ←
      replacePieces default replace (offset + c.utf8Size) ps
    pure (c :: text, modified, escaped)
  | offset, .equation w :: ps => do
    let new? ← replacement? replace w (w.occurrence default offset)
    let (text, modified, escaped) ←
      replacePieces default replace (offset + Text.utf8Length w.source) ps
    pure (new?.getD w.source ++ text, new?.isSome || modified,
      (if w.escaped then 1 else 0) + escaped)

/-- Replaces the inline equations of a text, which is searched only if it may hold one. -/
def replaceEquations (default : Dialect) (text : String)
    (replace : Occurrence → m (Option String)) : m Replaced := do
  if mayContain text then
    let (cs, modified, escaped) ← replacePieces default replace 0 (pieces text.toList)
    pure ⟨String.ofList cs, modified, escaped⟩
  else
    pure ⟨text, false, 0⟩

end DocumentMath.Inline
