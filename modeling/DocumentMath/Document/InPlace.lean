import DocumentMath.Document.Candidate
import DocumentMath.Error

/-!
# Editing in place

A document is edited at a candidate: its text is overwritten, or the block at its path is exchanged
for another. An edit fails if there is nothing of the right kind at the path, and says so with the
kind and the path of the candidate; the document stays as it is then.
-/

namespace DocumentMath

/-- That there is no node of the kind of a candidate at its path. -/
def Candidate.missing (c : Candidate) : Error :=
  .missingNode c.kind.name (NodePath.text c.path)

namespace Document

/-- Overwrites the text of a candidate. -/
def setText (d : Document) (c : Candidate) (text : String) : Except Error Unit × Document :=
  match d.setText? c text with
  | some d' => (.ok (), d')
  | none => (.error c.missing, d)

/-- Exchanges the block at the path of a candidate, of whatever kind, and returns the old one. -/
def replaceBlock (d : Document) (c : Candidate) (replacement : Block) :
    Except Error Block × Document :=
  match d.block? c.path, d.replaceBlock? c.path replacement with
  | some old, some d' => (.ok old, d')
  | _, _ => (.error c.missing, d)

end Document

end DocumentMath
