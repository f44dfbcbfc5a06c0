import DocumentMath.Proofs.Equation
import DocumentMath.Proofs.Pass.Requests
import DocumentMath.Proofs.Render.Reached

/-!
# Equations with one artifact

The computed identifier of an equation is that of its LaTeX between delimiters, so it depends on
whether the equation is inline only as far as the delimiters tell. They do not tell an inline
equation that has dollar signs of its own from the display of what is between them
(`ReadsAsDisplay`): the two have one identifier, and the one that comes first is what is shown for
both (`Pass.alike_of_dollars`). There are no others: unless two inputs happen to have the same
digest, equations without a given identifier share an artifact only if they are the same or read so
(`Pass.artifacts_eq_iff`).
-/

namespace DocumentMath

/-- An equation of a document, with the identifier given for it. -/
structure NamedEquation where
  explicit? : Option String
  equation : Equation
  deriving DecidableEq

namespace NamedEquation

/-- The equation as a renderer gets it. -/
def input (e : NamedEquation) : NamedInput :=
  ⟨e.explicit?, e.equation.input⟩

/-- Two equations are the same, or one is inline and reads as the display that the other one is. -/
def Alike (e e' : NamedEquation) : Prop :=
  (e.equation.latex = e'.equation.latex ∧ e.equation.inline = e'.equation.inline) ∨
    ReadsAsDisplay e.equation.latex e.equation.inline e'.equation.latex e'.equation.inline ∨
    ReadsAsDisplay e'.equation.latex e'.equation.inline e.equation.latex e.equation.inline

end NamedEquation

namespace Pass

variable {σ : Type} (p : Pass σ)

/-! ### The equations of a document -/

/-- The equations at a spot of a document, as displays or inline. -/
def equationsAt : Spot → List NamedEquation
  | .math m => (p.typesettable? m).toList.map fun (dialect, _) ↦
      ⟨m.id, .ofPayload dialect false m.content⟩
  | .text attributes text => (Inline.asked p.options.dialect text).map fun o ↦
      ⟨none, p.equationOf attributes o⟩
  | .nested => []

/-- The equations of a document in order. -/
def equations (d : Document) : List NamedEquation :=
  d.spots.flatMap p.equationsAt

/-- What comes of the equations of a document when they are rendered one after the other. -/
def attempts (d : Document) (world : σ) : List Attempt :=
  (RenderState.renderAll p.host p.settings (p.inputs d) ⟨.initial, world⟩).1

variable {p}

theorem latex_of_typesettable? {m : MathBlock} {dialect : Dialect} {latex : String}
    (h : p.typesettable? m = some (dialect, latex)) : latex = canonicalLatex dialect m.content := by
  obtain ⟨dialect', -, hsome⟩ := Option.bind_eq_some_iff.mp h
  simp only at hsome
  split at hsome <;> cases hsome
  rfl

theorem map_input_equationsAt (x : Spot) :
    (p.equationsAt x).map NamedEquation.input = p.inputsAt x := by
  cases x with
  | math m =>
    rw [equationsAt, inputsAt, List.map_map]
    refine List.map_congr_left ?_
    rintro ⟨dialect, latex⟩ hfound
    obtain rfl := latex_of_typesettable? (Option.mem_toList.mp hfound)
    rfl
  | text attributes text => rw [equationsAt, inputsAt, List.map_map]; rfl
  | nested => rfl

theorem map_input_equations (d : Document) :
    (p.equations d).map NamedEquation.input = p.inputs d := by
  rw [equations, inputs, List.map_flatMap]
  congr 1
  exact funext map_input_equationsAt

/-- What an engine gets of an equation is its LaTeX between the delimiters of its kind. -/
theorem input_of_mem_equations {d : Document} {e : NamedEquation} (h : e ∈ p.equations d) :
    e.equation.input = delimit e.equation.latex e.equation.inline := by
  obtain ⟨x, -, he⟩ := List.mem_flatMap.mp h
  cases x with
  | math m =>
    obtain ⟨found, -, rfl⟩ := List.mem_map.mp he
    rfl
  | text attributes text =>
    obtain ⟨o, -, rfl⟩ := List.mem_map.mp he
    rfl
  | nested => cases he

/-- To attempt equations one after the other is to call for them one after the other. -/
theorem renderAll_of_attempts {es : List NamedInput} {as : List Attempt} {st st' : RenderState σ}
    (h : (es.mapM p.attempt).run.run st = (.ok as, st')) :
    RenderState.renderAll p.host p.settings es st = (as, st') := by
  induction es generalizing st as with
  | nil =>
    rw [List.mapM_nil] at h
    cases h
    rfl
  | cons e es ih =>
    rw [List.mapM_cons] at h
    obtain ⟨x, st₁, hx, h⟩ := Fallible.run_bind_eq_ok h
    obtain ⟨as, st₂, has, h⟩ := Fallible.run_bind_eq_ok h
    cases h
    obtain ⟨rfl, hrender⟩ := attempt_eq_ok hx
    rw [RenderState.renderAll_cons, hrender, ih has]

/-! ### Equations that share an artifact -/

/-- An attempt is at the equation that it stands beside. -/
theorem equation_of_mem_zip {d : Document} {world : σ} {e : NamedEquation} {x : Attempt}
    (h : (e, x) ∈ (p.equations d).zip (p.attempts d world)) : x.equation = e.input := by
  have hmap : (p.attempts d world).map Attempt.equation
      = (p.equations d).map NamedEquation.input := by
    rw [map_input_equations, attempts, RenderState.equation_renderAll]
  obtain ⟨i, hi⟩ := List.mem_iff_getElem?.mp h
  obtain ⟨he, hx⟩ := List.getElem?_zip_eq_some.mp hi
  have hi' := congrArg (·[i]?) hmap
  simp only [List.getElem?_map, he, hx, Option.map_some] at hi'
  exact Option.some.inj hi'

/-- Without given identifiers and without colliding digests, equations have one identifier exactly
if they are alike. -/
theorem identifier_eq_iff {d : Document} {e e' : NamedEquation} (he : e ∈ p.equations d)
    (he' : e' ∈ p.equations d) (hunnamed : e.input.isNamed = false)
    (hunnamed' : e'.input.isNamed = false)
    (hdigest : Md5.hexDigest e.input.input = Md5.hexDigest e'.input.input →
      e.input.input = e'.input.input) :
    e.input.identifier = e'.input.identifier ↔ e.Alike e' := by
  have hinput : e.input.input = e'.input.input ↔ e.Alike e' := by
    rw [NamedEquation.Alike, ← delimit_eq_delimit_iff, ← input_of_mem_equations he,
      ← input_of_mem_equations he']
    rfl
  rw [NamedInput.identifier_of_not_isNamed hunnamed, NamedInput.identifier_of_not_isNamed hunnamed',
    ← hinput]
  exact ⟨fun h ↦ hdigest (hexDigest_eq_of_contentIdentifier_eq h), congrArg contentIdentifier⟩

/-- **Which equations share an artifact.** Two inputs are the same exactly if LaTeX and delimiters
are, or if one is inline and reads as the display that the other one is; so it is for the computed
identifiers of the equations of a document, unless two different inputs have one digest; and the
equations are rendered one after the other, where two of them come to the same artifact exactly if
they have one identifier. -/
theorem artifacts_eq_iff (p : Pass σ) (d : Document) (world : σ)
    (hdigest : ∀ e ∈ p.inputs d, ∀ e' ∈ p.inputs d, Md5.hexDigest e.input = Md5.hexDigest e'.input →
      e.input = e'.input) :
    (∀ a b i j, delimit a i = delimit b j
      ↔ (a = b ∧ i = j) ∨ ReadsAsDisplay a i b j ∨ ReadsAsDisplay b j a i) ∧
    (∀ e ∈ p.equations d, ∀ e' ∈ p.equations d, e.input.isNamed = false →
      e'.input.isNamed = false → (e.input.identifier = e'.input.identifier ↔ e.Alike e')) ∧
    (∀ e x, (e, x) ∈ (p.equations d).zip (p.attempts d world) →
      ∀ e' x', (e', x') ∈ (p.equations d).zip (p.attempts d world) →
        ∀ a b, x.result = .ok a → x'.result = .ok b →
          (a = b ↔ e.input.identifier = e'.input.identifier)) ∧
    ∀ report, (p.run d world).result = .ok report →
      ∃ st, ((p.inputs d).mapM p.attempt).run.run ⟨.initial, world⟩
          = (.ok (p.attempts d world), st) ∧
        st.world = (p.run d world).world ∧
        report.failures = (p.attempts d world).filterMap Attempt.failure? := by
  refine ⟨fun a b i j ↦ delimit_eq_delimit_iff, fun e he e' he' hunnamed hunnamed' ↦ ?_,
    fun e x hx e' x' hx' a b ha hb ↦ ?_, fun report hreport ↦ ?_⟩
  · have hmem : ∀ e ∈ p.equations d, e.input ∈ p.inputs d := fun e he ↦
      map_input_equations d ▸ List.mem_map_of_mem he
    exact identifier_eq_iff he he' hunnamed hunnamed' (hdigest _ (hmem e he) _ (hmem e' he'))
  · rw [← equation_of_mem_zip hx, ← equation_of_mem_zip hx']
    exact RenderState.artifact_eq_iff (List.of_mem_zip hx).2 ha (List.of_mem_zip hx').2 hb
  · obtain ⟨as, st, hrun, hworld, hfailures⟩ := exists_attempts hreport
    have has : p.attempts d world = as := by rw [attempts, renderAll_of_attempts hrun]
    rw [has]
    exact ⟨st, hrun, hworld, hfailures⟩

/-- A pass for LaTeX that embeds what it makes. -/
def passForLatex : Pass Unit where
  host := .writable (Prepared.engine ⟨[], 1, 1, none, none⟩)
  options := { Options.initial with format := .svg, embed := true, dialect := .latex }
  workingDirectory := ⟨"/"⟩

/-- A document with a display, and with its LaTeX inline, once in dollar signs and once as it is. -/
def dollarDocument : Document :=
  ⟨.empty,
    [.math ⟨none, none, "latexmath", "x", none⟩,
      .prose ⟨none, none, "paragraph", ["a latexmath:[$x$] b latexmath:[x] c"], .normal⟩]⟩

/-- The equations of the document: a display, and two inline ones. -/
def dollarEquations : List NamedEquation :=
  [⟨none, "x", "$$x$$", false⟩, ⟨none, "$x$", "$$x$$", true⟩, ⟨none, "x", "$x$", true⟩]

theorem equations_dollar : passForLatex.equations dollarDocument = dollarEquations := by
  decide +kernel

theorem isRendered_dollar :
    (passForLatex.attempts dollarDocument ()).map Attempt.isRendered = [true, true, true] := by
  decide +kernel

theorem requests_dollar :
    (passForLatex.requests dollarDocument ()).map Request.input = ["$$x$$", "$x$"] := by
  rw [requests, calls, (passForLatex.recording.run_eq_traverse dollarDocument ((), [])).2.1]
  decide +kernel

/-- The display and the equation in dollar signs come to one artifact, and the other inline equation
comes to another one. -/
theorem artifacts_eq_iff_of_dollars :
    (∀ e ∈ passForLatex.inputs dollarDocument, ∀ e' ∈ passForLatex.inputs dollarDocument,
      Md5.hexDigest e.input = Md5.hexDigest e'.input → e.input = e'.input) ∧
    ∃ a b, a ≠ b ∧
      (passForLatex.attempts dollarDocument ()).map Attempt.artifact? = [some a, some a, some b] := by
  have hdigest : ∀ e ∈ passForLatex.inputs dollarDocument,
      ∀ e' ∈ passForLatex.inputs dollarDocument,
        Md5.hexDigest e.input = Md5.hexDigest e'.input → e.input = e'.input := by
    decide +kernel
  obtain ⟨-, hidentifier, hartifact, -⟩ := artifacts_eq_iff passForLatex dollarDocument () hdigest
  obtain ⟨x, xs, hattempts, hx, hrest⟩ := List.map_eq_cons_iff.mp isRendered_dollar
  obtain ⟨y, ys, rfl, hy, hrest⟩ := List.map_eq_cons_iff.mp hrest
  obtain ⟨z, zs, rfl, hz, hrest⟩ := List.map_eq_cons_iff.mp hrest
  obtain rfl := List.map_eq_nil_iff.mp hrest
  obtain ⟨a, ha⟩ := Attempt.exists_result_of_isRendered hx
  obtain ⟨b, hb⟩ := Attempt.exists_result_of_isRendered hy
  obtain ⟨c, hc⟩ := Attempt.exists_result_of_isRendered hz
  rw [equations_dollar, dollarEquations] at hidentifier
  rw [equations_dollar, dollarEquations, hattempts] at hartifact
  have hab : a = b := by
    refine (hartifact ⟨none, "x", "$$x$$", false⟩ x (by simp) ⟨none, "$x$", "$$x$$", true⟩ y
      (by simp) a b ha hb).mpr ?_
    exact (hidentifier _ (by simp) _ (by simp) rfl rfl).mpr (.inr (.inr ⟨rfl, rfl, rfl⟩))
  have hbc : b ≠ c := by
    intro heq
    have hidentifiers := (hartifact ⟨none, "$x$", "$$x$$", true⟩ y (by simp)
      ⟨none, "x", "$x$", true⟩ z (by simp) b c hb hc).mp heq
    have halike := (hidentifier _ (by simp) _ (by simp) rfl rfl).mp hidentifiers
    simp [NamedEquation.Alike, ReadsAsDisplay] at halike
  refine ⟨hdigest, b, c, hbc, ?_⟩
  simp [hattempts, Attempt.artifact?, ha, hb, hc, hab, Except.toOption]

/-- The delimiters do not tell an inline equation with dollar signs of its own from a display. So the
two have one identifier in a document with both, and the engine is asked once for them. -/
theorem alike_of_dollars :
    (¬∀ (dialect dialect' : Dialect) (payload payload' : String) (i j : Bool),
      delimit (canonicalLatex dialect payload) i = delimit (canonicalLatex dialect' payload') j →
        canonicalLatex dialect payload = canonicalLatex dialect' payload' ∧ i = j) ∧
    (¬∀ e ∈ passForLatex.equations dollarDocument, ∀ e' ∈ passForLatex.equations dollarDocument,
      e.input.isNamed = false → e'.input.isNamed = false →
        e.input.identifier = e'.input.identifier →
          e.equation.latex = e'.equation.latex ∧ e.equation.inline = e'.equation.inline) ∧
    (passForLatex.requests dollarDocument ()).map Request.input = ["$$x$$", "$x$"] := by
  refine ⟨fun h ↦ ?_, fun h ↦ ?_, requests_dollar⟩
  · have hx : canonicalLatex .latex "x" = "x" := by decide +kernel
    have hdollars : canonicalLatex .latex "$x$" = "$x$" := by decide +kernel
    have heq := h .latex .latex "$x$" "x" true false (by rw [hx, hdollars]; rfl)
    exact Bool.noConfusion heq.2
  · rw [equations_dollar, dollarEquations] at h
    have heq := h ⟨none, "$x$", "$$x$$", true⟩ (by simp) ⟨none, "x", "$$x$$", false⟩ (by simp)
      rfl rfl rfl
    exact Bool.noConfusion heq.2

end Pass

end DocumentMath
