import DocumentMath.AsciiMath.Latex
import DocumentMath.Dialect
import DocumentMath.Substitution
import DocumentMath.Text.Search

/-!
# Equations for the engine

What an engine is asked to typeset is LaTeX between dollar signs: one on each side for an inline
equation, two for a display. The payload of an equation becomes LaTeX by trimming it, taking the
backslash off each escaped closing bracket and writing AsciiMath as LaTeX; an inline equation may
then go through substitutions.
-/

namespace DocumentMath

/-- The LaTeX of a payload, without delimiters. -/
def canonicalLatex (dialect : Dialect) (payload : String) : String :=
  let text := Text.replaceAll ['\\', ']'] [']'] (Text.trim payload.toList)
  String.ofList <|
    match dialect with
    | .latex => text
    | .asciiMath => AsciiMath.toLatex text

/-- The delimiter of inline or display input. -/
def delimiterOf (inline : Bool) : String :=
  if inline then "$" else "$$"

/-- LaTeX between delimiters. -/
def delimit (latex : String) (inline : Bool) : String :=
  delimiterOf inline ++ latex ++ delimiterOf inline

/-- An equation as an engine gets it. -/
structure Equation where
  /-- The LaTeX without delimiters. -/
  latex : String
  /-- The LaTeX between delimiters. -/
  input : String
  /-- Whether it is set inline. -/
  inline : Bool
  deriving DecidableEq, Repr

namespace Equation

/-- The equation of a payload to which no substitutions apply. -/
def ofPayload (dialect : Dialect) (inline : Bool) (payload : String) : Equation :=
  let latex := canonicalLatex dialect payload
  ⟨latex, delimit latex inline, inline⟩

/-- The equation of a payload to whose LaTeX substitutions apply. -/
def ofPayloadWith (subs : SubstitutionSet) (attributes : Attributes) (dialect : Dialect)
    (inline : Bool) (payload : String) : Equation :=
  let latex := subs.apply (some attributes) (canonicalLatex dialect payload)
  ⟨latex, delimit latex inline, inline⟩

end Equation

end DocumentMath
