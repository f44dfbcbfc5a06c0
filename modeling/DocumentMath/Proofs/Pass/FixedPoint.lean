import DocumentMath.Proofs.Document.Outcome
import DocumentMath.Proofs.Pass.Host
import DocumentMath.Proofs.Pass.Reference
import DocumentMath.Proofs.Pass.Traversal
import DocumentMath.Proofs.Render.Rendering
import DocumentMath.Render.Prepared
import DocumentMath.Render.Workspace

/-!
# A finished pass is a fixed point

When a pass has replaced every equation of a document and no backslash was lost, there is nothing
left to do: another pass with the same options leaves the document as it is, and neither asks its
engine nor writes a file (`Pass.rerun_eq`). What is put into the document must not look like an
equation itself.

The proof has two halves. A pass does nothing at a spot that is *settled*, and so nothing in a
document with settled spots only (`traversal_of_isSettled`). And a pass that ends without a failure
leaves only settled spots (`isSettled_of_traversal`). The second half looks from the end of the pass
back to its steps (`finishRule`), since failures and artifacts only become more.
-/

namespace DocumentMath

open Inline

variable {σ τ : Type}

namespace Pass

/-- There is nothing to do for the pass at a spot. -/
def IsSettled (p : Pass σ) : Spot → Prop
  | .math m => p.typesettable? m = none
  | .text _ text => Inline.IsSettled text.toList
  | .nested => True

/-! ### Nothing is done at settled spots -/

/-- Nothing has been done but to look. -/
structure Idle (g g' : Progress σ) : Prop where
  rendering : g'.rendering = g.rendering
  mathBlocks : g'.report.mathBlocks = g.report.mathBlocks
  inlineEquations : g'.report.inlineEquations = g.report.inlineEquations
  escaped : g'.report.escaped = g.report.escaped
  spansChanged : g'.report.spansChanged = g.report.spansChanged
  failures : g'.report.failures = g.report.failures

theorem Idle.refl (g : Progress σ) : Idle g g :=
  ⟨rfl, rfl, rfl, rfl, rfl, rfl⟩

theorem Idle.trans {g g' g'' : Progress σ} (h : Idle g g') (h' : Idle g' g'') : Idle g g'' :=
  ⟨h'.rendering.trans h.rendering, h'.mathBlocks.trans h.mathBlocks,
    h'.inlineEquations.trans h.inlineEquations, h'.escaped.trans h.escaped,
    h'.spansChanged.trans h.spansChanged, h'.failures.trans h.failures⟩

/-- A step returns what is expected and does nothing but look. -/
def idleRelation : EffectRelation (WorkM σ) Id where
  rel x y := ∀ g, ∃ g', x.run.run g = (.ok y.run, g') ∧ Idle g g'
  pure a g := ⟨g, rfl, .refl g⟩
  bind := by
    intro α β x y f k hx hf g
    obtain ⟨g₁, hg₁, hidle₁⟩ := hx g
    obtain ⟨g₂, hg₂, hidle₂⟩ := hf y.run g₁
    exact ⟨g₂, (Fallible.run_bind_of_ok hg₁).trans hg₂, hidle₁.trans hidle₂⟩

theorem idleRelation_count (change : Report → Report)
    (h : ∀ g : Progress σ, Idle g { g with report := change g.report }) :
    (idleRelation (σ := σ)).rel (Work.count change) (pure ()) :=
  fun g ↦ ⟨{ g with report := change g.report }, rfl, h g⟩

/-- At a settled spot a pass only looks. -/
theorem related_of_isSettled (p : Pass σ) {x : Spot} (h : p.IsSettled x) :
    x.Related idleRelation p.visitor .identity := by
  cases x with
  | math m =>
    show idleRelation.rel (Work.math p m) (pure (Block.math m))
    rw [Work.math, show p.typesettable? m = none from h]
    exact idleRelation.bind_of_unit
      (idleRelation_count _ fun g ↦ ⟨rfl, rfl, rfl, rfl, rfl, rfl⟩) (idleRelation.pure _)
  | text attributes text =>
    show idleRelation.rel (Work.text p attributes text) (pure none)
    rw [Work.text]
    split
    · have hnew : replaceEquations p.options.dialect text (Work.replace p attributes)
          = pure ⟨text, false, 0⟩ := by
        rw [replaceEquations_eq_map, Inline.IsSettled.asked h, List.mapM_nil, map_pure,
          Inline.IsSettled.replacedBy h]
      rw [hnew, pure_bind]
      refine idleRelation.bind_of_unit
        (idleRelation_count _ fun g ↦ ⟨rfl, rfl, rfl, rfl, rfl, rfl⟩) ?_
      exact idleRelation.bind_of_unit
        (idleRelation_count _ fun g ↦ ⟨rfl, rfl, rfl, rfl, rfl, rfl⟩) (idleRelation.pure none)
    · exact idleRelation.pure none
  | nested =>
    exact idleRelation_count (fun r ↦ { r with nestedDocuments := r.nestedDocuments + 1 })
      fun g ↦ ⟨rfl, rfl, rfl, rfl, rfl, rfl⟩

/-- A pass over a document with settled spots only looks. -/
theorem traversal_of_isSettled (p : Pass σ) {d : Document} (h : ∀ x ∈ d.spots, p.IsSettled x)
    (world : σ) : ∃ g, p.traversal d world = (.ok d, g) ∧ Idle (.initial world) g := by
  have hrel := d.traverse_related idleRelation fun x hx ↦ p.related_of_isSettled (h x hx)
  obtain ⟨g, hg, hidle⟩ := hrel (.initial world)
  rw [d.traverse_identity] at hg
  exact ⟨g, hg, hidle⟩

/-! ### Only settled spots are left -/

/-- Each artifact that is kept has the target that belongs to its identifier, if artifacts are
files. -/
def KeepsTargets (p : Pass σ) (r : Renderer) : Prop :=
  p.options.embed = false → ∀ entry ∈ r.cache,
    entry.2.target? = some (p.settings.location.target (p.settings.fileName entry.1))

/-- All has gone well so far, and no equation opens in what is embedded. -/
structure IsFine (p : Pass σ) (g : Progress σ) : Prop where
  failures : g.report.failures = []
  escaped : g.report.escaped = 0
  quiet : p.options.embed = true →
    ∀ entry ∈ g.rendering.renderer.cache, ¬Opens entry.2.markup.toList

/-- A result has a property for certain if all is well after it. Then all was well before, and this
is how it is known of each step. -/
def finishRule (p : Pass σ) : EffectRule (WorkM σ) where
  holds x Q := ∀ g b g', p.KeepsTargets g.rendering.renderer → x.run.run g = (.ok b, g') →
    p.KeepsTargets g'.rendering.renderer ∧ (p.IsFine g' → p.IsFine g ∧ Q b)
  pure := by
    intro α a Q ha g b g' hg h
    cases h
    exact ⟨hg, fun hfine ↦ ⟨hfine, ha⟩⟩
  bind := by
    intro α β x f Q S hx hf g b g' hg h
    obtain ⟨a, g₁, ha, hb⟩ := Fallible.run_bind_eq_ok h
    obtain ⟨hg₁, hbefore⟩ := hx g a g₁ hg ha
    obtain ⟨hg', hafter⟩ := hf a g₁ b g' hg₁ hb
    refine ⟨hg', fun hfine ↦ ?_⟩
    obtain ⟨hfine₁, hS⟩ := hafter hfine
    obtain ⟨hfine₀, hQ⟩ := hbefore hfine₁
    exact ⟨hfine₀, hS hQ⟩
  mono := by
    intro α x Q S hx hQS g b g' hg h
    obtain ⟨hg', hfine⟩ := hx g b g' hg h
    exact ⟨hg', fun h ↦ ⟨(hfine h).1, hQS b (hfine h).2⟩⟩

variable {p : Pass σ}

theorem finishRule_count (change : Report → Report) {Q : Prop}
    (h : ∀ g : Progress σ, p.IsFine { g with report := change g.report } → p.IsFine g ∧ Q) :
    p.finishRule.holds (Work.count change) fun _ ↦ Q := by
  intro g b g' hg hrun
  cases hrun
  exact ⟨hg, h g⟩

/-- Most of what is counted does not matter. -/
theorem finishRule_count_other (change : Report → Report)
    (h : ∀ r, (change r).failures = r.failures ∧ (change r).escaped = r.escaped) :
    p.finishRule.holds (Work.count change) fun _ ↦ True := by
  refine finishRule_count change fun g hfine ↦ ⟨⟨?_, ?_, hfine.quiet⟩, trivial⟩
  · rw [← (h g.report).1]
    exact hfine.failures
  · rw [← (h g.report).2]
    exact hfine.escaped

/-- What can be said of an artifact that a pass uses for an equation, if all goes well. -/
structure Fits (p : Pass σ) (identifier : String) (a : Artifact) : Prop where
  quiet : p.options.embed = true → ¬Opens a.markup.toList
  target : p.options.embed = false →
    a.target? = some (p.settings.location.target (p.settings.fileName identifier))

/-- An artifact that is rendered keeps the invariant, and fits if no equation opens in what is kept
afterwards. -/
theorem fits_of_render {input : String} {explicit? : Option String} {a : Artifact}
    {st st' : RenderState σ} (hst : p.KeepsTargets st.renderer)
    (h : st.render p.host p.settings input explicit? = (.ok a, st')) :
    p.KeepsTargets st'.renderer ∧ (∀ entry ∈ st.renderer.cache, entry ∈ st'.renderer.cache) ∧
      ((p.options.embed = true → ∀ entry ∈ st'.renderer.cache, ¬Opens entry.2.markup.toList) →
        p.Fits (identifierOf explicit? input) a) := by
  rcases RenderState.cache_of_render_ok h with ⟨ha, hcache⟩ | ⟨answer, houtcome, hcache⟩
  · refine ⟨?_, ?_, fun hquiet ↦ ⟨fun hembed ↦ ?_, fun hembed ↦ ?_⟩⟩
    · rw [KeepsTargets, hcache]
      exact hst
    · rw [hcache]
      exact fun _ ↦ id
    · rw [hcache] at hquiet
      exact hquiet hembed (identifierOf explicit? input, a) ha
    · exact hst hembed (identifierOf explicit? input, a) ha
  · have htarget : p.options.embed = false → a.target?
        = some (p.settings.location.target (p.settings.fileName (identifierOf explicit? input))) :=
      fun hembed ↦ RenderSettings.target?_of_outcome hembed houtcome
    refine ⟨?_, ?_, fun hquiet ↦ ⟨fun hembed ↦ ?_, htarget⟩⟩
    · rw [KeepsTargets, hcache]
      intro hembed
      rw [List.forall_mem_append, List.forall_mem_singleton]
      exact ⟨hst hembed, htarget hembed⟩
    · rw [hcache]
      exact fun _ ↦ List.mem_append_left _
    · rw [hcache] at hquiet
      exact hquiet hembed (identifierOf explicit? input, a)
        (List.mem_append_right _ (List.mem_singleton_self _))

theorem finishRule_artifact? (input : String) (explicit? : Option String) :
    p.finishRule.holds (Work.artifact? p input explicit?) fun a? ↦
      ∃ a, a? = some a ∧ p.Fits (identifierOf explicit? input) a := by
  intro g b g' hg h
  rcases Work.artifact?_cases p input explicit? g with
    ⟨a, st, hrender, hrun⟩ | ⟨error, st, hrender, -, hrun⟩ | ⟨error, st, -, -, hrun⟩
  · cases hrun.symm.trans h
    obtain ⟨hst, hkept, hfits⟩ := fits_of_render hg hrender
    refine ⟨hst, fun hfine ↦ ⟨⟨hfine.failures, hfine.escaped, ?_⟩, a, rfl, hfits hfine.quiet⟩⟩
    exact fun hembed entry hentry ↦ hfine.quiet hembed entry (hkept entry hentry)
  · cases hrun.symm.trans h
    have hcache := RenderState.cache_of_render_error hrender
    refine ⟨?_, fun hfine ↦ ?_⟩
    · rw [KeepsTargets, hcache]
      exact hg
    · -- the failure has been recorded
      have hfailures := hfine.failures
      simp [Report.addFailure] at hfailures
  · cases hrun.symm.trans h

/-- A math block is replaced, unless there is nothing to typeset in it. -/
theorem finishRule_math (m : MathBlock) :
    p.finishRule.holds (Work.math p m) fun b ↦
      ∀ attributes, ∀ x ∈ b.spots attributes, p.IsSettled x := by
  rw [Work.math]
  cases hfound : p.typesettable? m with
  | none =>
    refine p.finishRule.bind (finishRule_count_other _ fun _ ↦ ⟨rfl, rfl⟩)
      fun _ ↦ p.finishRule.pure fun _ attributes ↦ ?_
    exact List.forall_mem_singleton.mpr hfound
  | some found =>
    obtain ⟨dialect, latex⟩ := found
    refine p.finishRule.bind (finishRule_artifact? _ _) fun a? ↦ ?_
    cases a? with
    | none =>
      refine p.finishRule.pure fun hsome ↦ ?_
      obtain ⟨a, ha, -⟩ := hsome
      cases ha
    | some a =>
      refine p.finishRule.bind (finishRule_count_other _ fun _ ↦ ⟨rfl, rfl⟩)
        fun _ ↦ p.finishRule.pure fun _ _ attributes ↦ ?_
      rw [MathBlock.replacement]
      split <;> exact List.forall_mem_nil _

variable (hlead : p.options.embed = false → ¬Opens p.settings.location.lead.toList)
include hlead

/-- What takes the place of an inline equation is a reference. -/
theorem isReference_of_fits {input : String} {a : Artifact}
    (h : p.Fits (identifierOf none input) a) :
    IsReference (a.inlineReplacement p.options.embed).toList := by
  rw [Artifact.inlineReplacement]
  split
  · next hembed => exact Artifact.isReference_embedded (h.quiet hembed)
  · next hembed =>
    have hembed' : p.options.embed = false := by simpa using hembed
    exact Artifact.isReference_imageReference (h.target hembed')
      (OutputLocation.not_opens_target (hlead hembed') (colon_not_mem_fileName _ _))

/-- Each inline equation is replaced by a reference. -/
theorem finishRule_replace (attributes : Attributes) (o : Occurrence) :
    p.finishRule.holds (Work.replace p attributes o) fun answer ↦
      ∃ new, answer = some new ∧ IsReference new.toList := by
  rw [Work.replace]
  refine p.finishRule.bind (finishRule_artifact? _ _) fun a? ↦ ?_
  cases a? with
  | none =>
    refine p.finishRule.pure fun hsome ↦ ?_
    obtain ⟨a, ha, -⟩ := hsome
    cases ha
  | some a =>
    refine p.finishRule.bind (finishRule_count_other _ fun _ ↦ ⟨rfl, rfl⟩)
      fun _ ↦ p.finishRule.pure fun _ hsome ↦ ?_
    obtain ⟨a', ha, hfits⟩ := hsome
    cases ha
    exact ⟨_, rfl, isReference_of_fits hlead hfits⟩

/-- A text is settled when its equations have been replaced. -/
theorem finishRule_text (attributes : Attributes) (text : String) :
    p.finishRule.holds (Work.text p attributes text) fun new? ↦
      p.IsSettled (.text attributes (new?.getD text)) := by
  rw [Work.text]
  split
  · refine p.finishRule.bind (finishRule_count_other _ fun _ ↦ ⟨rfl, rfl⟩)
      fun _ ↦ ?_
    have hnew : p.finishRule.holds
        (replaceEquations p.options.dialect text (Work.replace p attributes))
        fun new ↦ (new.escaped = 0 → Inline.IsSettled new.text.toList) ∧
          (new.modified = false → new.text = text) := by
      rw [replaceEquations_eq_map]
      refine p.finishRule.map (p.finishRule.mapM fun o _ ↦ finishRule_replace hlead attributes o)
        fun answers hanswers ↦ ?_
      exact ⟨fun hescaped ↦ isSettled_replacedBy hanswers.1 hescaped hanswers.2,
        text_replacedBy_of_not_modified⟩
    refine p.finishRule.bind hnew fun new ↦ ?_
    refine p.finishRule.bind (Q := fun _ ↦ new.escaped = 0)
      (finishRule_count _ fun g hfine ↦ ?_)
      fun _ ↦ ?_
    · have hescaped := Nat.add_eq_zero_iff.mp hfine.escaped
      exact ⟨⟨hfine.failures, hescaped.1, hfine.quiet⟩, hescaped.2⟩
    · split
      · refine p.finishRule.bind (finishRule_count_other _ fun _ ↦ ⟨rfl, rfl⟩)
          fun _ ↦ p.finishRule.pure fun _ hescaped hsettled _ ↦ ?_
        exact hsettled.1 hescaped
      · next hmodified =>
        refine p.finishRule.pure fun hescaped hsettled _ ↦ ?_
        have hsettled' := hsettled.1 hescaped
        rw [hsettled.2 (by simpa using hmodified)] at hsettled'
        exact hsettled'
  · next hmay => exact p.finishRule.pure (isSettled_of_not_mayContain hmay)

/-- A pass in which all goes well leaves only settled spots. -/
theorem isSettled_of_traversal {d new : Document} {world : σ} {g : Progress σ}
    (h : p.traversal d world = (.ok new, g)) (hfine : p.IsFine g) :
    ∀ x ∈ new.spots, p.IsSettled x := by
  have hspots : ∀ x ∈ d.spots, x.Leaves p.finishRule p.visitor p.IsSettled := by
    intro x _
    cases x with
    | math m => exact finishRule_math m
    | text attributes text => exact finishRule_text hlead attributes text
    | nested =>
      refine p.finishRule.mono (finishRule_count_other
        (fun r ↦ { r with nestedDocuments := r.nestedDocuments + 1 }) fun _ ↦ ⟨rfl, rfl⟩) ?_
      exact fun _ _ ↦ trivial
  have hinitial : p.KeepsTargets (Progress.initial world).rendering.renderer :=
    fun _ ↦ List.forall_mem_nil _
  exact ((d.traverse_leaves p.finishRule hspots _ _ _ hinitial h).2 hfine).2

omit hlead

/-! ### The second pass -/

/-- The artifacts that a pass over a document keeps. -/
def artifacts (p : Pass σ) (d : Document) (world : σ) : List Artifact :=
  (p.steps d world).2.rendering.renderer.cache.map (·.2)

theorem artifacts_eq (p : Pass σ) (d : Document) (world : σ) :
    p.artifacts d world = (p.traversal d world).2.rendering.renderer.cache.map (·.2) := by
  obtain ⟨document, hsteps, -⟩ := p.steps_eq d world
  rw [artifacts, hsteps]

/-- **A finished pass is a fixed point.** Let a pass succeed without failures and without taking a
backslash, and let no equation open in the lead of its targets, if artifacts are files, or in the
markup of an artifact, if artifacts are embedded. Then a second pass with the same options, whatever
its host, changes neither the document nor its surroundings, and reports that nothing was done.
Since that holds for every host, no operation of the host is used, the engine included. -/
theorem rerun_eq (p : Pass σ) (d : Document) (world : σ) (host : Host τ) (world' : τ)
    (report : Report) (hok : (p.run d world).result = .ok report) (hfailures : report.failures = [])
    (hescaped : report.escaped = 0)
    (hlead : p.options.embed = false → ¬Opens p.settings.location.lead.toList)
    (hmarkup : p.options.embed = true → ∀ a ∈ p.artifacts d world, ¬Opens a.markup.toList) :
    ∃ report', (p.withHost host).run (p.run d world).document world'
        = ⟨.ok report', (p.run d world).document, world'⟩ ∧
      report'.mathBlocks = 0 ∧ report'.inlineEquations = 0 ∧ report'.escaped = 0 ∧
        report'.spansChanged = 0 ∧ report'.filesWritten = 0 ∧ report'.failures = [] := by
  obtain ⟨g, htraversal, rfl⟩ := p.traversal_of_result hok
  have hfine : p.IsFine g := by
    refine ⟨hfailures, hescaped, fun hembed entry hentry ↦ hmarkup hembed entry.2 ?_⟩
    rw [artifacts_eq, htraversal]
    exact List.mem_map_of_mem hentry
  have hsettled := isSettled_of_traversal hlead htraversal hfine
  obtain ⟨g', htraversal', hidle⟩ := (p.withHost host).traversal_of_isSettled hsettled world'
  obtain ⟨hresult, hworld, hdocument⟩ := (p.withHost host).result_of_traversal htraversal'
  have hfiles : g'.rendering.renderer.filesWritten = 0 := by
    rw [hidle.rendering]
    rfl
  rw [hidle.rendering] at hworld
  refine ⟨{ g'.report with filesWritten := g'.rendering.renderer.filesWritten }, ?_,
    hidle.mathBlocks, hidle.inlineEquations, hidle.escaped, hidle.spansChanged, hfiles,
    hidle.failures⟩
  rw [← hresult]
  exact congrArg₂ (Outcome.mk _) hdocument hworld

/-- A pass that writes files, for an engine that accepts everything. -/
def passWritingFiles : Pass Workspace where
  host := .ofEngine (Prepared.engine ⟨[], 1, 1, none, none⟩)
  options := { Options.initial with dialect := .latex, format := .svg }
  workingDirectory := ⟨"/"⟩

/-- Nothing but a root. -/
def emptyWorkspace : Workspace :=
  .ofFiles (.withDirectory [])

/-- A document with an inline equation between one that is blank and one that is not closed, and
with two blocks, of which one has an unknown style. -/
def mixedDocument : Document :=
  ⟨.empty,
    [.prose ⟨none, none, "paragraph", ["stem:[ ]latexmath:[x]stem:[ stem"], .normal⟩,
      .math ⟨none, none, "latexmath", "x", none⟩, .math ⟨none, none, "unknown", "x", none⟩]⟩

theorem rerun_eq_of_mixed :
    ∃ report, (passWritingFiles.run mixedDocument emptyWorkspace).result = .ok report ∧
      report.failures = [] ∧ report.escaped = 0 ∧
      (passWritingFiles.options.embed = false →
        ¬Opens passWritingFiles.settings.location.lead.toList) ∧
      (passWritingFiles.options.embed = true →
        ∀ a ∈ passWritingFiles.artifacts mixedDocument emptyWorkspace, ¬Opens a.markup.toList) ∧
      ∃ report', (passWritingFiles.withHost passWritingFiles.host).run
          (passWritingFiles.run mixedDocument emptyWorkspace).document
          (passWritingFiles.run mixedDocument emptyWorkspace).world
        = ⟨.ok report', (passWritingFiles.run mixedDocument emptyWorkspace).document,
          (passWritingFiles.run mixedDocument emptyWorkspace).world⟩ ∧
        report'.mathBlocks = 0 ∧ report'.inlineEquations = 0 ∧ report'.escaped = 0 ∧
          report'.spansChanged = 0 ∧ report'.filesWritten = 0 ∧ report'.failures = [] := by
  have hfine : (passWritingFiles.traversal mixedDocument emptyWorkspace).1.isOk = true ∧
      (passWritingFiles.traversal mixedDocument emptyWorkspace).2.report.failures = [] ∧
        (passWritingFiles.traversal mixedDocument emptyWorkspace).2.report.escaped = 0 := by
    decide +kernel
  have hlead : passWritingFiles.options.embed = false →
      ¬Opens passWritingFiles.settings.location.lead.toList :=
    fun _ ↦ not_opens_of_colon_not_mem (by decide +kernel)
  have hmarkup : passWritingFiles.options.embed = true →
      ∀ a ∈ passWritingFiles.artifacts mixedDocument emptyWorkspace, ¬Opens a.markup.toList :=
    fun hembed ↦ by cases hembed
  rcases h : passWritingFiles.traversal mixedDocument emptyWorkspace with ⟨error | new, g⟩ <;>
    rw [h] at hfine
  · cases hfine.1
  · have hok := (result_of_traversal _ h).1
    exact ⟨_, hok, hfine.2.1, hfine.2.2, hlead, hmarkup,
      rerun_eq _ _ _ _ _ _ hok hfine.2.1 hfine.2.2 hlead hmarkup⟩

end Pass

end DocumentMath
