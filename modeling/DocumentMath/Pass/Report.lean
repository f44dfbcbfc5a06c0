import DocumentMath.Error

/-!
# Reports

A report counts what a pass did, and lists the equations that could not be rendered.
-/

namespace DocumentMath

/-- What a pass did. -/
structure Report where
  /-- Math blocks that were replaced. -/
  mathBlocks : Nat
  /-- Math blocks with an unknown style or nothing in them. -/
  skippedBlocks : Nat
  /-- Texts that were searched for inline equations. -/
  spansScanned : Nat
  /-- Texts that were changed. -/
  spansChanged : Nat
  /-- Inline equations that were replaced. -/
  inlineEquations : Nat
  /-- Inline equations that lost the backslash in front of them. -/
  escaped : Nat
  /-- Documents in table cells. -/
  nestedDocuments : Nat
  /-- Files that were written. -/
  filesWritten : Nat
  /-- Equations that could not be rendered, in document order. -/
  failures : List Failure
  deriving DecidableEq, Repr

namespace Report

/-- The report of a pass that has done nothing. -/
def empty : Report := ⟨0, 0, 0, 0, 0, 0, 0, 0, []⟩

/-- The number of equations that were replaced. -/
def equations (r : Report) : Nat :=
  r.mathBlocks + r.inlineEquations

/-- Whether any equation could not be rendered. -/
def hasFailures (r : Report) : Bool :=
  !r.failures.isEmpty

/-- The report with one more failure. -/
def addFailure (f : Failure) (r : Report) : Report :=
  { r with failures := r.failures ++ [f] }

/-- The report as one line of text; nested documents and failures are mentioned if there are
any. -/
def text (r : Report) : String :=
  toString r.mathBlocks ++ " block(s), " ++ toString r.inlineEquations ++
    " inline equation(s) in " ++ toString r.spansChanged ++ " of " ++
    toString r.spansScanned ++ " span(s), " ++ toString r.filesWritten ++ " file(s) written" ++
    (if 0 < r.nestedDocuments then ", " ++ toString r.nestedDocuments ++ " nested document(s)"
      else "") ++
    (if r.hasFailures then ", " ++ toString r.failures.length ++ " failed" else "")

end Report

end DocumentMath
