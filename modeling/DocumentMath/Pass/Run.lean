import DocumentMath.Document.Encode
import DocumentMath.Document.Nested
import DocumentMath.Document.Reading
import DocumentMath.Inline.Replaced
import DocumentMath.Pass.Options
import DocumentMath.Pass.Replacement
import DocumentMath.Pass.Report

/-!
# Passes

A pass visits the sites of a document in order, renders the equations it finds there and puts what
was rendered in their place. The sites are those of the document as it was given; a visit edits the
node at its own site only, so the later sites still lead where they did.

An equation that the engine rejects stays as it is written and is listed in the report. Any other
error ends the pass, and the document is left as the visits before it made it: a text is written
back only once all its equations have been dealt with.
-/

namespace DocumentMath

variable {σ : Type}

/-- A pass: its surroundings and its options. -/
structure Pass (σ : Type) where
  host : Host σ
  options : Options
  /-- Where relative directories start when the options name no other. -/
  workingDirectory : Path

/-- What a pass has made so far. -/
structure PassState (σ : Type) where
  document : Document
  report : Report
  rendering : RenderState σ

/-- A step of a pass; the state that a failing step leaves is kept. -/
abbrev PassM (σ : Type) := ExceptT Error (StateM (PassState σ))

/-- How a pass ends. -/
structure Outcome (σ : Type) where
  result : Except Error Report
  /-- The document, also when the pass has failed. -/
  document : Document
  world : σ

namespace PassState

/-- Nothing has been done to a document yet. -/
def initial (d : Document) (world : σ) : PassState σ :=
  ⟨d, .empty, ⟨.initial, world⟩⟩

end PassState

namespace Pass

/-- How the pass renders equations. -/
def settings (p : Pass σ) : RenderSettings where
  format := p.options.format
  resolution := p.options.effectiveResolution
  embed := p.options.embed
  location := p.options.location p.workingDirectory

/-! ### Single steps -/

/-- Changes the report. -/
def count (change : Report → Report) : PassM σ Unit :=
  modify fun st ↦ { st with report := change st.report }

/-- Changes the document at a site. -/
def edit (s : Site) (change : Document → Option Document) : PassM σ Unit := do
  match change (← get).document with
  | some document => modify fun st ↦ { st with document }
  | none => throw (.missingNode s.candidate.kind.name (NodePath.text s.candidate.path))

/-- Renders an equation. One that the engine rejects is recorded and gives nothing. -/
def artifact? (p : Pass σ) (input : String) (explicit? : Option String) :
    PassM σ (Option Artifact) :=
  ExceptT.mk fun st ↦
    match st.rendering.render p.host p.settings input explicit? with
    | (.ok a, rendering) => (.ok (some a), { st with rendering })
    | (.error e, rendering) =>
      if e.isRenderFailure then
        (.ok none, { st with rendering, report := st.report.addFailure ⟨input, e.message⟩ })
      else (.error e, { st with rendering })

/-! ### Math blocks -/

/-- The notation and the LaTeX of a math block, unless its style is unknown or it has nothing in
it. -/
def typesettable? (p : Pass σ) (m : MathBlock) : Option (Dialect × String) :=
  (Dialect.ofStyle? m.style p.options.dialect).bind fun dialect ↦
    let latex := canonicalLatex dialect m.content
    if latex.isEmpty then none else some (dialect, latex)

/-- Visits a math block. -/
def visitMath (p : Pass σ) (s : Site) (m : MathBlock) : PassM σ Unit := do
  match p.typesettable? m with
  | none => count fun r ↦ { r with skippedBlocks := r.skippedBlocks + 1 }
  | some (dialect, latex) =>
    if let some a ← p.artifact? (delimit latex false) m.id then
      edit s (s.replaceBlockIn? (m.replacement p.options.embed dialect latex a))
      count fun r ↦ { r with mathBlocks := r.mathBlocks + 1 }

/-! ### Texts -/

/-- The substitutions that apply to an inline equation: those it lists, or the default ones. -/
def subsFor (p : Pass σ) (o : Inline.Occurrence) : SubstitutionSet :=
  (o.subs.map SubstitutionSet.resolve).getD p.options.defaultSubs

/-- An inline equation as the engine gets it, under the attributes in force. -/
def equationOf (p : Pass σ) (attributes : Attributes) (o : Inline.Occurrence) : Equation :=
  .ofPayloadWith (p.subsFor o) attributes o.dialect true o.payload

/-- What takes the place of an inline equation, if it can be rendered. -/
def replace (p : Pass σ) (attributes : Attributes) (o : Inline.Occurrence) :
    PassM σ (Option String) := do
  match ← p.artifact? (p.equationOf attributes o).input none with
  | none => pure none
  | some a =>
    count fun r ↦ { r with inlineEquations := r.inlineEquations + 1 }
    pure (some (a.inlineReplacement p.options.embed))

/-- Visits a text. One that cannot hold an inline equation is passed over. -/
def visitText (p : Pass σ) (s : Site) (text : String) : PassM σ Unit := do
  if Inline.mayContain text then
    count fun r ↦ { r with spansScanned := r.spansScanned + 1 }
    let new ← Inline.replaceEquations p.options.dialect text (p.replace s.attributes)
    count fun r ↦ { r with escaped := r.escaped + new.escaped }
    if new.modified then
      edit s (s.setTextIn? new.text)
      count fun r ↦ { r with spansChanged := r.spansChanged + 1 }

/-! ### The whole pass -/

/-- Visits a site. The sites of a nested document follow its own, so at its own there is nothing to
do but to count it. -/
def visit (p : Pass σ) (s : Site) : PassM σ Unit := do
  match s.candidate.kind with
  | .mathBlock =>
    match s.blockIn? (← get).document with
    | some (.math m) => p.visitMath s m
    | _ => pure ()
  | .nestedDocument => count fun r ↦ { r with nestedDocuments := r.nestedDocuments + 1 }
  | _ =>
    match s.textIn? (← get).document with
    | some text => p.visitText s text
    | none => pure ()

/-- Visits all sites of a document. -/
def steps (p : Pass σ) (d : Document) (world : σ) : Except Error Unit × PassState σ :=
  ((d.sites.forM p.visit).run).run (.initial d world)

/-- Runs the pass over a document. Equations that cannot be rendered are listed in the report. -/
def run (p : Pass σ) (d : Document) (world : σ) : Outcome σ :=
  let (result, st) := p.steps d world
  { result := result.map fun _ ↦
      { st.report with filesWritten := st.rendering.renderer.filesWritten }
    document := st.document
    world := st.rendering.world }

/-- The pass with the options that the attributes of a document set. -/
def ofDocument (host : Host σ) (workingDirectory : Path) (d : Document) : Pass σ :=
  ⟨host, .ofDocument d, workingDirectory⟩

end Pass

namespace Outcome

/-- The outcome when an equation that cannot be rendered counts as an error. -/
def strict (o : Outcome σ) : Outcome σ :=
  { o with
    result := o.result.bind fun r ↦
      if r.hasFailures then .error (.equationsFailed r.failures) else .ok r }

end Outcome

/-- Runs a strict pass, with the options its attributes set, over a document. -/
def processDocument (host : Host σ) (workingDirectory : Path) (d : Document) (world : σ) :
    Outcome σ :=
  ((Pass.ofDocument host workingDirectory d).run d world).strict

/-- Reads a document from JSON, runs a strict pass over it and writes it as JSON. -/
def processJson (host : Host σ) (workingDirectory : Path) (layout : JsonLayout) (text : String)
    (world : σ) : Except Error String × σ :=
  match Document.ofJsonText text with
  | .error e => (.error (.json e), world)
  | .ok d =>
    let outcome := processDocument host workingDirectory d world
    (outcome.result.map fun _ ↦ outcome.document.toJsonText layout, outcome.world)

end DocumentMath
