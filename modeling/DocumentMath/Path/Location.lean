import DocumentMath.Path.Basic

/-!
# Where artifacts go

Artifacts are written to one directory, and the document refers to them by a target: the name of the
file behind the way from the images directory to that directory. The images directory
itself is not part of a target, since a converter puts it in front of every target.
-/

namespace DocumentMath

/-- Where artifacts are written and how the document refers to them. -/
structure OutputLocation where
  /-- The directory artifacts are written to. -/
  directory : Path
  /-- What stands in front of the names of files in references. -/
  lead : String
  deriving DecidableEq, Repr

namespace OutputLocation

/-- A directory setting counts only if something is written. -/
def setting? (p? : Option Path) : Option Path :=
  p?.filter (!·.isEmpty)

/-- The location for the settings of the images output directory and the images directory. With an
images output directory, artifacts go there, and references lead there from the images directory or,
when none is set, name it as it is written. Otherwise artifacts go to the images directory or else
to `base`, and references are the bare names. -/
def resolve (imagesOut? images? : Option Path) (base : Path) : OutputLocation :=
  match setting? imagesOut?, setting? images? with
  | some out, some images =>
    let directory := out.resolveAgainst base
    ⟨directory, ((images.resolveAgainst base).relative directory).withSlashes⟩
  | some out, none => ⟨out.resolveAgainst base, out.withSlashes⟩
  | none, some images => ⟨images.resolveAgainst base, "."⟩
  | none, none => ⟨base.normalize, "."⟩

/-- The target by which the document refers to a file. -/
def target (l : OutputLocation) (fileName : String) : String :=
  if l.lead = "" ∨ l.lead = "." then fileName
  else
    String.ofList (l.lead.toList.reverse.dropWhile (· == '/')).reverse ++ "/" ++ fileName

/-- The path a file is written to. -/
def filePath (l : OutputLocation) (fileName : String) : Path :=
  l.directory.join ⟨fileName⟩

end OutputLocation

end DocumentMath
