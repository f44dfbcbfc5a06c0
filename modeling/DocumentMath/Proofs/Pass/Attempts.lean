import DocumentMath.Proofs.Pass.Alone
import DocumentMath.Proofs.Render.Kept

/-!
# What comes of each equation

`Pass.attempt` renders an equation and puts down what comes of it: an artifact, or the error for
which it is rejected. The work of a pass at a spot renders the equations there in order and nothing
else, and what it adds to the report can be told from the attempts (`Pass.noted`). So it is for math
blocks (`Work.math_attempts`) and for texts (`Work.text_attempts`), where a text is counted as
changed only if it is another one afterwards.
-/

namespace DocumentMath

open Inline

variable {σ : Type}

namespace Pass

variable (p : Pass σ)

/-- Renders an equation. An error that is not about the equation is not put down but returned. -/
def attempt (e : NamedInput) : ExceptT Error (StateM (RenderState σ)) Attempt :=
  ExceptT.mk fun st ↦
    match st.render p.host p.settings e.input e.explicit? with
    | (.ok a, st) => (.ok ⟨e, .ok a⟩, st)
    | (.error error, st) =>
      if error.isRenderFailure then (.ok ⟨e, .error error⟩, st) else (.error error, st)

variable {p}

theorem attempt_of_ok {e : NamedInput} {st st' : RenderState σ} {a : Artifact}
    (h : st.render p.host p.settings e.input e.explicit? = (.ok a, st')) :
    (p.attempt e).run.run st = (.ok ⟨e, .ok a⟩, st') := by
  simp only [attempt, ExceptT.run, ExceptT.mk, StateT.run, h]

theorem attempt_of_failure {e : NamedInput} {st st' : RenderState σ} {error : Error}
    (h : st.render p.host p.settings e.input e.explicit? = (.error error, st'))
    (hfailure : error.isRenderFailure = true) :
    (p.attempt e).run.run st = (.ok ⟨e, .error error⟩, st') := by
  simp only [attempt, ExceptT.run, ExceptT.mk, StateT.run, h]
  exact if_pos hfailure

/-- An attempt is made at an equation by rendering it. -/
theorem attempt_eq_ok {e : NamedInput} {st st' : RenderState σ} {x : Attempt}
    (h : (p.attempt e).run.run st = (.ok x, st')) :
    x.equation = e ∧ st.render p.host p.settings e.input e.explicit? = (x.result, st') := by
  simp only [attempt, ExceptT.run, ExceptT.mk, StateT.run] at h
  rcases hrender : st.render p.host p.settings e.input e.explicit? with ⟨error | a, st₁⟩ <;>
    rw [hrender] at h
  · simp only at h
    split at h <;> cases h
    exact ⟨rfl, rfl⟩
  · cases h
    exact ⟨rfl, rfl⟩

/-- There is one attempt at each equation. -/
theorem equation_of_attempts {es : List NamedInput} {as : List Attempt} {st st' : RenderState σ}
    (h : (es.mapM p.attempt).run.run st = (.ok as, st')) : as.map Attempt.equation = es := by
  induction es generalizing st as with
  | nil =>
    rw [List.mapM_nil] at h
    cases h
    rfl
  | cons e es ih =>
    rw [List.mapM_cons] at h
    obtain ⟨x, st₁, hx, h⟩ := Fallible.run_bind_eq_ok h
    obtain ⟨as, st₂, has, h⟩ := Fallible.run_bind_eq_ok h
    cases h
    rw [List.map_cons, (attempt_eq_ok hx).1, ih has]

/-- What a renderer keeps after an attempt: if the equation has been rendered, its identifier is
added. -/
theorem keeps_of_attempt {e : NamedInput} {x : Attempt} {rendered : List String}
    {st st' : RenderState σ} (hkeeps : st.renderer.Keeps p.options.embed rendered)
    (h : (p.attempt e).run.run st = (.ok x, st')) :
    st'.renderer.Keeps p.options.embed (rendered ++ x.identifier?.toList) := by
  obtain ⟨e', result⟩ := x
  obtain ⟨rfl, hrender⟩ := attempt_eq_ok h
  cases result with
  | ok a => exact Renderer.Keeps.render_ok hkeeps hrender
  | error error =>
    have hkept := Renderer.Keeps.render_error hkeeps hrender
    rwa [← List.append_nil rendered] at hkept

/-- What a renderer keeps after attempts at equations: the identifiers of those that have been
rendered are added. -/
theorem keeps_of_attempts {es : List NamedInput} {as : List Attempt} {rendered : List String}
    {st st' : RenderState σ} (hkeeps : st.renderer.Keeps p.options.embed rendered)
    (h : (es.mapM p.attempt).run.run st = (.ok as, st')) :
    st'.renderer.Keeps p.options.embed (rendered ++ as.filterMap Attempt.identifier?) := by
  induction es generalizing st as rendered with
  | nil =>
    rw [List.mapM_nil] at h
    cases h
    rwa [List.filterMap_nil, List.append_nil]
  | cons e es ih =>
    rw [List.mapM_cons] at h
    obtain ⟨x, st₁, hx, h⟩ := Fallible.run_bind_eq_ok h
    obtain ⟨as, st₂, has, h⟩ := Fallible.run_bind_eq_ok h
    cases h
    have hkept := ih (keeps_of_attempt hkeeps hx) has
    rw [List.append_assoc] at hkept
    cases hidentifier : x.identifier? <;> rw [hidentifier] at hkept <;>
      simpa [hidentifier] using hkept

end Pass

/-! ### The report -/

/-- The report after a spot of which the equations came to the attempts. -/
def Pass.noted (p : Pass σ) (as : List Attempt) (changed : Bool) (r : Report) : Spot → Report
  | .math m => { r with
      mathBlocks := r.mathBlocks + as.countP Attempt.isRendered
      skippedBlocks := r.skippedBlocks + if (p.typesettable? m).isNone then 1 else 0
      failures := r.failures ++ as.filterMap Attempt.failure? }
  | .text _ text => { r with
      spansScanned := r.spansScanned + if mayContain text then 1 else 0
      spansChanged := r.spansChanged + if changed then 1 else 0
      inlineEquations := r.inlineEquations + as.countP Attempt.isRendered
      escaped := r.escaped + (scan p.options.dialect text).countP (·.escaped)
      failures := r.failures ++ as.filterMap Attempt.failure? }
  | .nested => { r with nestedDocuments := r.nestedDocuments + 1 }

theorem Text.head?_toList_append {s : String} {c : Char} (h : s.toList.head? = some c)
    (t : String) : (s ++ t).toList.head? = some c := by
  rw [String.toList_append, List.head?_append, h, Option.some_or]

/-- What takes the place of an equation does not begin like one. -/
theorem Artifact.unlikeNames_inlineReplacement (embed : Bool) (a : Artifact) :
    UnlikeNames (a.inlineReplacement embed).toList := by
  cases embed with
  | true =>
    refine ⟨'p', ?_, fun name ↦ by cases name <;> decide⟩
    exact Text.head?_toList_append (Text.head?_toList_append (by decide) _) _
  | false =>
    refine ⟨'i', ?_, fun name ↦ by cases name <;> decide⟩
    exact Text.head?_toList_append (Text.head?_toList_append (by decide) _) _

namespace Work

variable {p : Pass σ} {g g' : Progress σ}

theorem artifact?_attempt {e : NamedInput} {a? : Option Artifact}
    (h : (artifact? p e.input e.explicit?).run.run g = (.ok a?, g')) :
    ∃ x, (p.attempt e).run.run g.rendering = (.ok x, g'.rendering) ∧ a? = x.artifact? ∧
      g'.report = { g.report with
        failures := g.report.failures ++ [x].filterMap Attempt.failure? } := by
  rcases artifact?_cases p e.input e.explicit? g with
    ⟨a, st, hrender, hrun⟩ | ⟨error, st, hrender, hfailure, hrun⟩ | ⟨error, st, -, -, hrun⟩ <;>
    cases hrun.symm.trans h
  · refine ⟨_, Pass.attempt_of_ok hrender, rfl, ?_⟩
    exact (congrArg (fun failures ↦ { g.report with failures }) (List.append_nil _)).symm
  · exact ⟨_, Pass.attempt_of_failure hrender hfailure, rfl, rfl⟩

/-- A math block is skipped, or its equation is rendered. -/
theorem math_attempts {m : MathBlock} {b : Block}
    (h : (math p m).run.run g = (.ok b, g')) :
    ∃ as, ((p.inputsAt (.math m)).mapM p.attempt).run.run g.rendering = (.ok as, g'.rendering) ∧
      g'.report = p.noted as false g.report (.math m) := by
  rw [math] at h
  rw [Pass.inputsAt]
  cases hfound : p.typesettable? m with
  | none =>
    rw [hfound] at h
    cases h
    exact ⟨[], rfl, by simp [Pass.noted, hfound]⟩
  | some found =>
    obtain ⟨dialect, latex⟩ := found
    rw [hfound] at h
    obtain ⟨a?, g₁, hartifact, h⟩ := Fallible.run_bind_eq_ok h
    obtain ⟨x, hx, rfl, hreport⟩ :=
      artifact?_attempt (e := ⟨m.id, delimit latex false⟩) hartifact
    refine ⟨[x], ?_, ?_⟩ <;> cases hx' : x.artifact? <;> rw [hx'] at h <;> cases h
    · simp only [Option.toList_some, List.map_cons, List.map_nil, List.mapM_cons, List.mapM_nil]
      rw [Fallible.run_bind_of_ok hx]
      rfl
    · simp only [Option.toList_some, List.map_cons, List.map_nil, List.mapM_cons, List.mapM_nil]
      rw [Fallible.run_bind_of_ok hx]
      rfl
    · simp [Pass.noted, hfound, hreport, Attempt.isRendered, hx']
    · simp [Pass.noted, hfound, hreport, Attempt.isRendered, hx']

theorem replace_attempt {attributes : Attributes} {o : Occurrence} {answer : Option String}
    (h : (replace p attributes o).run.run g = (.ok answer, g')) :
    ∃ x, (p.attempt (p.inlineInput attributes o)).run.run g.rendering = (.ok x, g'.rendering) ∧
      answer = x.artifact?.map (·.inlineReplacement p.options.embed) ∧
        g'.report = { g.report with
          inlineEquations := g.report.inlineEquations + [x].countP Attempt.isRendered
          failures := g.report.failures ++ [x].filterMap Attempt.failure? } := by
  rw [replace] at h
  obtain ⟨a?, g₁, hartifact, h⟩ := Fallible.run_bind_eq_ok h
  obtain ⟨x, hx, rfl, hreport⟩ :=
    artifact?_attempt (e := p.inlineInput attributes o) hartifact
  refine ⟨x, ?_⟩
  cases hx' : x.artifact? with
  | none =>
    rw [hx'] at h
    cases h
    exact ⟨hx, rfl, by simp [hreport, Attempt.isRendered, hx']⟩
  | some a =>
    rw [hx'] at h
    cases h
    exact ⟨hx, rfl, by simp [hreport, Attempt.isRendered, hx']⟩

/-- The equations that are asked about are rendered one after the other. -/
theorem replaces_attempts {attributes : Attributes} {os : List Occurrence}
    {answers : List (Option String)}
    (h : (os.mapM (replace p attributes)).run.run g = (.ok answers, g')) :
    ∃ as, ((os.map (p.inlineInput attributes)).mapM p.attempt).run.run g.rendering
        = (.ok as, g'.rendering) ∧
      answers = as.map (fun x ↦ x.artifact?.map (·.inlineReplacement p.options.embed)) ∧
        g'.report = { g.report with
          inlineEquations := g.report.inlineEquations + as.countP Attempt.isRendered
          failures := g.report.failures ++ as.filterMap Attempt.failure? } := by
  induction os generalizing g answers with
  | nil =>
    cases h
    exact ⟨[], rfl, rfl, by simp⟩
  | cons o os ih =>
    rw [List.mapM_cons] at h
    obtain ⟨answer, g₁, ho, h⟩ := Fallible.run_bind_eq_ok h
    obtain ⟨answers, g₂, hos, h⟩ := Fallible.run_bind_eq_ok h
    cases h
    obtain ⟨x, hx, rfl, hreport⟩ := replace_attempt ho
    obtain ⟨as, has, rfl, hreport'⟩ := ih hos
    refine ⟨x :: as, ?_, rfl, ?_⟩
    · rw [List.map_cons, List.mapM_cons, Fallible.run_bind_of_ok hx, Fallible.run_bind_of_ok has]
      rfl
    · have hcons : x :: as = [x] ++ as := rfl
      simp only [hreport', hreport, hcons, List.countP_append, List.filterMap_append,
        List.append_assoc, Nat.add_assoc]

/-- The equations in a text are rendered, and if there is a new text, it is another one. -/
theorem text_attempts {attributes : Attributes} {t : String} {new? : Option String}
    (h : (text p attributes t).run.run g = (.ok new?, g')) :
    ∃ as, ((p.inputsAt (.text attributes t)).mapM p.attempt).run.run g.rendering
        = (.ok as, g'.rendering) ∧
      g'.report = p.noted as new?.isSome g.report (.text attributes t) ∧ ∀ new ∈ new?, new ≠ t := by
  rw [text] at h
  split at h
  · next hmay =>
    obtain ⟨u, g₁, hscanned, h⟩ := Fallible.run_bind_eq_ok h
    cases hscanned
    obtain ⟨new, g₂, hnew, h⟩ := Fallible.run_bind_eq_ok h
    -- replacing is asking for each equation in turn, and nothing else has an effect
    rw [replaceEquations_eq_map] at hnew
    obtain ⟨answers, hanswers, rfl⟩ := Fallible.run_map_eq_ok hnew
    obtain ⟨u, g₃, hescaped, h⟩ := Fallible.run_bind_eq_ok h
    cases hescaped
    obtain ⟨as, has, rfl, hreport⟩ := replaces_attempts hanswers
    refine ⟨as, ?_⟩
    split at h
    · next hmodified =>
      obtain ⟨u, g₄, hchanged, h⟩ := Fallible.run_bind_eq_ok h
      cases hchanged
      cases h
      refine ⟨has, ?_, fun new hnew ↦ ?_⟩
      · simp [Pass.noted, hreport, hmay, escaped_replacedBy]
      · cases hnew
        refine text_replacedBy_ne_of_modified (fun new hmem ↦ ?_) hmodified
        obtain ⟨x, -, hx⟩ := List.mem_map.mp hmem
        obtain ⟨a, -, rfl⟩ := Option.map_eq_some_iff.mp hx
        exact a.unlikeNames_inlineReplacement p.options.embed
    · cases h
      refine ⟨has, ?_, fun new hnew ↦ absurd hnew (Option.not_mem_none new)⟩
      simp [Pass.noted, hreport, hmay, escaped_replacedBy]
  · next hmay =>
    -- a text that is passed over has no occurrences
    cases h
    have hscan : scan p.options.dialect t = [] := by rw [scan, if_neg hmay]
    refine ⟨[], ?_, ?_, fun new hnew ↦ absurd hnew (Option.not_mem_none new)⟩
    · rw [Pass.inputsAt, asked, hscan]
      rfl
    · simp [Pass.noted, hmay, hscan]

end Work

end DocumentMath
