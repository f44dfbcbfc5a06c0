import DocumentMath.Text.Blank

/-!
# Notations of an equation

An equation is written in LaTeX or in AsciiMath. A document chooses a default with its `stem`
attribute; a math block or an inline equation either names its notation or, under the generic name
`stem`, takes the default.
-/

namespace DocumentMath

/-- The notation an equation is written in. -/
inductive Dialect where
  | latex
  | asciiMath
  deriving DecidableEq, Repr, Inhabited

namespace Dialect

/-- The name by which a style or an attribute chooses the dialect. -/
def name : Dialect → String
  | latex => "latexmath"
  | asciiMath => "asciimath"

/-- The short name of the dialect. -/
def shortName : Dialect → String
  | latex => "latex"
  | asciiMath => "asciimath"

/-- The default a document's `stem` attribute chooses: LaTeX when the trimmed value names it, and
AsciiMath for every other value or none. -/
def ofStemAttribute (value : Option String) : Dialect :=
  match value.map Text.trimmed with
  | some "latexmath" | some "latex" | some "tex" => latex
  | _ => asciiMath

/-- The dialect of a math block's style, or nothing for a style that is no math notation. -/
def ofStyle? (style : String) (default : Dialect) : Option Dialect :=
  match style with
  | "latexmath" => some latex
  | "asciimath" => some asciiMath
  | "stem" => some default
  | _ => none

end Dialect

/-- The name an inline equation is opened with. -/
inductive MacroName where
  | stem
  | latexmath
  | asciimath
  deriving DecidableEq, Repr

namespace MacroName

/-- All names, in the order in which they are tried. -/
def all : List MacroName := [stem, latexmath, asciimath]

/-- The name as it is written. -/
def text : MacroName → String
  | stem => "stem"
  | latexmath => "latexmath"
  | asciimath => "asciimath"

/-- The name as a list of characters. -/
def chars (n : MacroName) : List Char :=
  n.text.toList

/-- The name with this text. -/
def ofText? (s : String) : Option MacroName :=
  all.find? (·.text == s)

/-- The dialect the name stands for; the generic name stands for the default. -/
def dialect (default : Dialect) : MacroName → Dialect
  | stem => default
  | latexmath => .latex
  | asciimath => .asciiMath

end MacroName

end DocumentMath
