import DocumentMath.Pass.Run
import DocumentMath.Proofs.Document.Traversal
import DocumentMath.Proofs.Inline.Splice

/-!
# The work of a pass without the document

What a pass does at a place depends on what stands there and on what it has made so far, its
*progress*: the report and the renderer. It does not depend on the rest of the document.
`Pass.visitor` is this work as a visitor of trees. `Work.lift` sets a step of the work into a pass,
where it leaves the document alone, and the steps of a pass that change no document are lifted from
the work.
-/

namespace DocumentMath

variable {σ : Type}

/-- What a pass has made so far beside the document. -/
structure Progress (σ : Type) where
  report : Report
  rendering : RenderState σ

/-- A step of the work; the progress that a failing step leaves is kept. -/
abbrev WorkM (σ : Type) := ExceptT Error (StateM (Progress σ))

/-- Nothing has been done yet. -/
def Progress.initial (world : σ) : Progress σ :=
  ⟨.empty, ⟨.initial, world⟩⟩

namespace Work

/-- Changes the report. -/
def count (change : Report → Report) : WorkM σ Unit :=
  modify fun g ↦ { g with report := change g.report }

variable (p : Pass σ)

/-- Renders an equation. One that the engine rejects is recorded and gives nothing. -/
def artifact? (input : String) (explicit? : Option String) : WorkM σ (Option Artifact) :=
  ExceptT.mk fun g ↦
    match g.rendering.render p.host p.settings input explicit? with
    | (.ok a, rendering) => (.ok (some a), { g with rendering })
    | (.error e, rendering) =>
      if e.isRenderFailure then (.ok none, ⟨g.report.addFailure ⟨input, e.message⟩, rendering⟩)
      else (.error e, { g with rendering })

/-- What becomes of a math block. -/
def math (m : MathBlock) : WorkM σ Block := do
  match p.typesettable? m with
  | none =>
    count fun r ↦ { r with skippedBlocks := r.skippedBlocks + 1 }
    pure (.math m)
  | some (dialect, latex) =>
    match ← artifact? p (delimit latex false) m.id with
    | none => pure (.math m)
    | some a =>
      count fun r ↦ { r with mathBlocks := r.mathBlocks + 1 }
      pure (m.replacement p.options.embed dialect latex a)

/-- What takes the place of an inline equation, if it can be rendered. -/
def replace (attributes : Attributes) (o : Inline.Occurrence) : WorkM σ (Option String) := do
  match ← artifact? p (p.equationOf attributes o).input none with
  | none => pure none
  | some a =>
    count fun r ↦ { r with inlineEquations := r.inlineEquations + 1 }
    pure (some (a.inlineReplacement p.options.embed))

/-- The new text in the place of a text, if it changes. -/
def text (attributes : Attributes) (text : String) : WorkM σ (Option String) := do
  if Inline.mayContain text then
    count fun r ↦ { r with spansScanned := r.spansScanned + 1 }
    let new ← Inline.replaceEquations p.options.dialect text (replace p attributes)
    count fun r ↦ { r with escaped := r.escaped + new.escaped }
    if new.modified then
      count fun r ↦ { r with spansChanged := r.spansChanged + 1 }
      pure (some new.text)
    else pure none
  else pure none

/-- Rendering an equation gives an artifact, or records that the equation has failed, or fails for
another reason. -/
theorem artifact?_cases (input : String) (explicit? : Option String) (g : Progress σ) :
    (∃ a st, g.rendering.render p.host p.settings input explicit? = (.ok a, st) ∧
        (artifact? p input explicit?).run.run g = (.ok (some a), ⟨g.report, st⟩)) ∨
      (∃ e st, g.rendering.render p.host p.settings input explicit? = (.error e, st) ∧
        e.isRenderFailure = true ∧ (artifact? p input explicit?).run.run g
          = (.ok none, ⟨g.report.addFailure ⟨input, e.message⟩, st⟩)) ∨
      ∃ e st, g.rendering.render p.host p.settings input explicit? = (.error e, st) ∧
        e.isRenderFailure = false ∧
          (artifact? p input explicit?).run.run g = (.error e, ⟨g.report, st⟩) := by
  have hrun : (artifact? p input explicit?).run.run g
      = match g.rendering.render p.host p.settings input explicit? with
        | (.ok a, rendering) => (.ok (some a), { g with rendering })
        | (.error e, rendering) =>
          if e.isRenderFailure then
            (.ok none, ⟨g.report.addFailure ⟨input, e.message⟩, rendering⟩)
          else (.error e, { g with rendering }) := rfl
  rcases hrender : g.rendering.render p.host p.settings input explicit? with ⟨e | a, st⟩ <;>
    rw [hrender] at hrun
  · cases hfailure : e.isRenderFailure with
    | true => exact Or.inr (Or.inl ⟨e, st, rfl, hfailure, by simpa [hfailure] using hrun⟩)
    | false => exact Or.inr (Or.inr ⟨e, st, rfl, hfailure, by simpa [hfailure] using hrun⟩)
  · exact Or.inl ⟨a, st, rfl, hrun⟩

end Work

/-- The work of a pass at the places of a document. -/
def Pass.visitor (p : Pass σ) : Visitor (WorkM σ) where
  math := Work.math p
  text := Work.text p
  nested := Work.count fun r ↦ { r with nestedDocuments := r.nestedDocuments + 1 }

/-! ### Work inside of a pass -/

namespace Work

variable {α β : Type}

/-- A step of the work as a step of a pass that leaves the document alone. -/
def lift (x : WorkM σ α) : PassM σ α :=
  ExceptT.mk fun st ↦
    match x.run.run ⟨st.report, st.rendering⟩ with
    | (result, g) => (result, ⟨st.document, g.report, g.rendering⟩)

theorem lift_run {x : WorkM σ α} {d : Document} {g g' : Progress σ} {r : Except Error α}
    (h : x.run.run g = (r, g')) :
    (lift x).run.run ⟨d, g.report, g.rendering⟩ = (r, ⟨d, g'.report, g'.rendering⟩) := by
  show (match x.run.run g with
    | (result, g) => (result, (⟨d, g.report, g.rendering⟩ : PassState σ))) = _
  rw [h]

theorem lift_pure (a : α) : lift (pure a : WorkM σ α) = pure a := rfl

theorem lift_bind (x : WorkM σ α) (f : α → WorkM σ β) :
    lift (x >>= f) = lift x >>= fun a ↦ lift (f a) := by
  refine funext fun st ↦ ?_
  rcases hx : x.run.run ⟨st.report, st.rendering⟩ with ⟨e | a, g⟩
  · exact (lift_run (Fallible.run_bind_of_error hx)).trans
      (Fallible.run_bind_of_error (lift_run hx)).symm
  · refine Eq.trans ?_ (Fallible.run_bind_of_ok (lift_run hx)).symm
    exact lift_run (Fallible.run_bind_of_ok hx)

theorem lift_map (f : α → β) (x : WorkM σ α) : lift (f <$> x) = f <$> lift x := by
  rw [← bind_pure_comp, ← bind_pure_comp, lift_bind]
  rfl

theorem lift_mapM (f : α → WorkM σ β) (xs : List α) :
    lift (xs.mapM f) = xs.mapM fun x ↦ lift (f x) := by
  induction xs with
  | nil => rfl
  | cons x xs ih => simp only [List.mapM_cons, lift_bind, ih, lift_pure]

theorem lift_count (change : Report → Report) :
    Pass.count change = lift (count (σ := σ) change) := rfl

theorem lift_artifact? (p : Pass σ) (input : String) (explicit? : Option String) :
    p.artifact? input explicit? = lift (artifact? p input explicit?) := by
  refine funext fun st ↦ ?_
  simp only [Pass.artifact?, lift, artifact?, ExceptT.mk, ExceptT.run, StateT.run]
  rcases st.rendering.render p.host p.settings input explicit? with ⟨e | a, rendering⟩
  · cases h : e.isRenderFailure <;> simp only [h] <;> rfl
  · rfl

theorem lift_replace (p : Pass σ) (attributes : Attributes) (o : Inline.Occurrence) :
    p.replace attributes o = lift (replace p attributes o) := by
  rw [Pass.replace, replace, lift_bind, lift_artifact?]
  congr 1
  funext a?
  cases a? with
  | none => rfl
  | some a => rw [lift_bind, lift_count]; rfl

theorem lift_replaceEquations (default : Dialect) (text : String)
    (f : Inline.Occurrence → WorkM σ (Option String)) :
    Inline.replaceEquations default text (fun o ↦ lift (f o))
      = lift (Inline.replaceEquations default text f) := by
  rw [Inline.replaceEquations_eq_map, Inline.replaceEquations_eq_map, lift_map, lift_mapM]

end Work

end DocumentMath
