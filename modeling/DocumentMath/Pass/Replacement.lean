import DocumentMath.Document.Basic
import DocumentMath.Equation
import DocumentMath.Render.Renderer

/-!
# What stands in the place of an equation

A rendered equation is referred to or embedded. A math block becomes an image of the file or a block
that passes the markup through, and keeps its identifier and its title; an inline equation becomes a
text that a converter reads as an inline image or as inline markup.
-/

namespace DocumentMath

namespace MathBlock

/-- The text for an image of the equation: the one given for it, unless that is empty, or else its
LaTeX as a display or its AsciiMath as a literal. -/
def altText (m : MathBlock) (dialect : Dialect) (latex : String) : String :=
  (m.alt.filter (!·.isEmpty)).getD <|
    match dialect with
    | .latex => delimit latex false
    | .asciiMath => "`" ++ Text.trimmed m.content ++ "`"

/-- The image of an artifact. -/
def toImage (m : MathBlock) (a : Artifact) (alt : String) : ImageBlock where
  id := m.id
  title := m.title
  target := a.target?.getD ""
  alt := alt
  align := some .center
  width := a.width?
  height := a.height?

/-- The markup of an artifact, passed through. -/
def toPassthrough (m : MathBlock) (a : Artifact) : PassthroughBlock where
  id := m.id
  title := m.title
  content := "<div class=\"stemblock\"> " ++ a.markup ++ " </div>"

/-- What takes the place of the block. -/
def replacement (m : MathBlock) (embed : Bool) (dialect : Dialect) (latex : String)
    (a : Artifact) : Block :=
  if embed then .passthrough (m.toPassthrough a)
  else .image (m.toImage a (m.altText dialect latex))

end MathBlock

namespace Artifact

/-- The text that embeds the markup. -/
def embedded (a : Artifact) : String :=
  "pass:[<span class=\"steminline\">" ++ a.markup ++ "</span>]"

/-- The text that refers to the file. -/
def imageReference (a : Artifact) : String :=
  "image:" ++ a.target?.getD "" ++
    match a.width?, a.height? with
    | some width, some height =>
      "[width=" ++ toString width.toNat ++ ",height=" ++ toString height.toNat ++ "]"
    | _, _ => "[]"

/-- What takes the place of an inline equation. -/
def inlineReplacement (embed : Bool) (a : Artifact) : String :=
  if embed then a.embedded else a.imageReference

end Artifact

end DocumentMath
