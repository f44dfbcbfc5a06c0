import DocumentMath.Decimal.Reading
import DocumentMath.Text.Blank

/-!
# Formats of rendered equations

An equation is rendered as a raster image, as a vector image or as markup. Only a raster image has a
resolution and a size; markup is never a file and always stands in the document itself.
-/

namespace DocumentMath

/-- The format of a rendered equation. -/
inductive Format where
  | png
  | svg
  | mathMl
  deriving DecidableEq, Repr, Inhabited

namespace Format

/-- All formats. -/
def all : List Format := [png, svg, mathMl]

/-- The name by which settings choose the format. -/
def name : Format → String
  | png => "png"
  | svg => "svg"
  | mathMl => "mathml"

/-- The format with this name, whatever the case of its letters. -/
def ofName? (name : String) : Option Format :=
  let plain := String.ofList ((Text.trim name.toList).map Decimal.lowerAscii)
  all.find? (·.name == plain)

/-- The name of the format in messages. -/
def label : Format → String
  | png => "PNG"
  | svg => "SVG"
  | mathMl => "MathML"

/-- What the names of files end with, after a point. -/
def fileExtension : Format → String
  | png => "png"
  | svg => "svg"
  | mathMl => "mml"

/-- Whether the format has a resolution and a size. -/
def isRaster (f : Format) : Bool :=
  f == png

/-- Whether the format stands only in the document itself. -/
def isMarkup (f : Format) : Bool :=
  f == mathMl

end Format

end DocumentMath
