import DocumentMath.Render.Engine
import DocumentMath.Text.Search

/-!
# Prepared engines

A prepared engine stands in for a typesetter where none is at hand. It answers by rules, of which
the first one counts whose text occurs in the request, and without a rule with a small artifact of
the right format that holds what was to be typeset.
-/

namespace DocumentMath

open Text (Bytes)

/-- How a prepared engine answers. -/
inductive PreparedAnswer where
  /-- It rejects the equation. -/
  | reject (message : String)
  /-- It fails for a reason of its own. -/
  | fail (message : String)
  /-- It returns these bytes. -/
  | data (bytes : Bytes)
  deriving DecidableEq, Repr

/-- A rule: the text it looks for, and the answer it then gives. -/
structure PreparedRule where
  contains : String
  answer : PreparedAnswer
  deriving DecidableEq, Repr

/-- What a prepared engine goes by. -/
structure Prepared where
  rules : List PreparedRule
  /-- The width in the header of an image. -/
  width : UInt32
  /-- The height in the header of an image. -/
  height : UInt32
  /-- The width the engine reports. -/
  reportedWidth? : Option UInt32
  /-- The height the engine reports. -/
  reportedHeight? : Option UInt32
  deriving DecidableEq, Repr

namespace Prepared

/-- The least image of a size, with a text behind its header. -/
def pngOf (width height : UInt32) (text : String) : Bytes :=
  Image.signature ++ Image.bigEndianBytes 13 ++ Image.headerName ++ Image.bigEndianBytes width ++
    Image.bigEndianBytes height ++ Text.encode text

/-- The artifact for a request without a rule. -/
def plainData (p : Prepared) (request : Request) : Bytes :=
  match request.format with
  | .png => pngOf p.width p.height request.input
  | .svg => Text.encode ("<svg>" ++ request.input ++ "</svg>")
  | .mathMl => Text.encode ("<math>" ++ request.input ++ "</math>")

/-- The answer to a request. -/
def answer (p : Prepared) (request : Request) : PreparedAnswer :=
  match p.rules.find? fun r ↦ Text.occursIn r.contains.toList request.input.toList with
  | some r => r.answer
  | none => .data (p.plainData request)

/-- The engine that answers so. -/
def engine (p : Prepared) : Engine := fun request ↦
  match p.answer request with
  | .reject message => .error (.engine message)
  | .fail message => .error (.other message)
  | .data bytes => .ok ⟨bytes, p.reportedWidth?, p.reportedHeight?⟩

end Prepared

end DocumentMath
