import DocumentMath.Proofs.Pass.Traversal
import DocumentMath.Proofs.Render.Calls
import DocumentMath.Render.Prepared

/-!
# Each equation alone

A pass keeps every artifact under its identifier and takes it again when an equation with the same
identifier comes up. Here the cache is shown to be invisible: the document that a pass leaves is the
one in which every equation has been rendered alone (`Pass.documentAlone`), with nothing kept from
any other and with files that can be written.

What carries the proof is an invariant of the renderer, `Pass.KeepsAlone`: what is kept under an
identifier is what each equation with that identifier comes to alone. It needs an engine whose
answer depends on the request only, and that equations of one identifier have one input.
-/

namespace DocumentMath

open Inline

variable {σ : Type}

/-! ### The rule -/

namespace Pass

variable (p : Pass σ) (engine : Engine)

/-- An inline equation as a renderer gets it. -/
def inlineInput (attributes : Attributes) (o : Occurrence) : NamedInput :=
  ⟨none, (p.equationOf attributes o).input⟩

/-- The equations at a spot of a document. -/
def inputsAt : Spot → List NamedInput
  | .math m => (p.typesettable? m).toList.map fun (_, latex) ↦ ⟨m.id, delimit latex false⟩
  | .text attributes text => (asked p.options.dialect text).map (p.inlineInput attributes)
  | .nested => []

/-- The equations of a document, those of the documents in its cells included. -/
def inputs (d : Document) : List NamedInput :=
  d.spots.flatMap p.inputsAt

/-- What an equation comes to when it is the first that is rendered. -/
def alone (e : NamedInput) : Except Error Artifact :=
  (RenderState.render (.writable engine) p.settings e.input e.explicit? ⟨.initial, ()⟩).1

/-- What a math block becomes when it is rendered alone. If that fails it stays as it is. -/
def mathAlone (m : MathBlock) : Block :=
  match p.typesettable? m with
  | none => .math m
  | some (dialect, latex) =>
    ((p.alone engine ⟨m.id, delimit latex false⟩).toOption.map
      (m.replacement p.options.embed dialect latex)).getD (.math m)

/-- What takes the place of an inline equation that is rendered alone, unless that fails. -/
def inlineAlone (attributes : Attributes) (o : Occurrence) : Option String :=
  (p.alone engine (p.inlineInput attributes o)).toOption.map
    (·.inlineReplacement p.options.embed)

/-- A text in which each equation has been rendered alone. -/
def textAlone (attributes : Attributes) (text : String) : Replaced :=
  answered p.options.dialect text
    ((asked p.options.dialect text).map (p.inlineAlone engine attributes))

/-- Goes through a document and renders each equation alone. -/
def aloneVisitor : Visitor Id where
  math m := p.mathAlone engine m
  text attributes text :=
    if (p.textAlone engine attributes text).modified then
      some (p.textAlone engine attributes text).text
    else none
  nested := ()

/-- The document in which each equation has been rendered alone. -/
def documentAlone (d : Document) : Document :=
  (d.traverse (p.aloneVisitor engine)).run

/-! ### The invariant of the renderer -/

/-- Whatever is kept under the identifier of one of the equations is what that equation comes to
alone. -/
def KeepsAlone (es : List NamedInput) (r : Renderer) : Prop :=
  ∀ entry ∈ r.cache, ∀ e ∈ es, e.identifier = entry.1 → p.alone engine e = .ok entry.2

theorem alone_eq (e : NamedInput) :
    p.alone engine e
      = p.settings.outcome e.identifier (engine (p.settings.request e.input)) := by
  show (RenderState.renderNew (.writable engine) p.settings e.identifier e.input
    ⟨.initial, ()⟩).1 = _
  simp only [RenderState.renderNew, RenderSettings.request, Host.writable]
  rcases engine ⟨e.input, p.settings.format, p.settings.resolution⟩ with error | output
  · rfl
  · simp only [RenderSettings.outcome]
    cases p.settings.accept e.identifier output with
    | error e => rfl
    | ok a =>
      simp only [RenderState.store]
      cases p.settings.embed <;> rfl

/-- Equations with the same identifier and the same input come to the same alone. -/
theorem alone_congr {e e' : NamedInput} (hidentifier : e.identifier = e'.identifier)
    (hinput : e.input = e'.input) : p.alone engine e = p.alone engine e' := by
  rw [alone_eq, alone_eq, hidentifier, hinput]

variable {p engine}

theorem keepsAlone_initial (es : List NamedInput) : p.KeepsAlone engine es .initial :=
  fun _ hentry ↦ absurd hentry List.not_mem_nil

theorem KeepsAlone.of_cache_eq {es : List NamedInput} {r r' : Renderer}
    (h : p.KeepsAlone engine es r) (hcache : r'.cache = r.cache) : p.KeepsAlone engine es r' := by
  rw [KeepsAlone, hcache]
  exact h

/-- The invariant bears an artifact that an equation comes to alone. -/
theorem KeepsAlone.append {es : List NamedInput} {r r' : Renderer} {e : NamedInput} {a : Artifact}
    (h : p.KeepsAlone engine es r) (hnames : ∀ e' ∈ es, e'.identifier = e.identifier →
      e'.input = e.input) (ha : p.alone engine e = .ok a)
    (hcache : r'.cache = r.cache ++ [(e.identifier, a)]) : p.KeepsAlone engine es r' := by
  intro entry hentry e' he' hidentifier
  rw [hcache, List.mem_append, List.mem_singleton] at hentry
  rcases hentry with hentry | rfl
  · exact h entry hentry e' he' hidentifier
  · rw [p.alone_congr engine hidentifier (hnames e' he' hidentifier), ha]

/-- With the invariant, a rendering gives what the equation comes to alone, or fails; if it is the
equation that fails, it fails alone. -/
theorem render_alone (hengine : p.host.Answers engine) {es : List NamedInput}
    (hnames : ∀ e ∈ es, ∀ e' ∈ es, e.identifier = e'.identifier → e.input = e'.input)
    {e : NamedInput} (he : e ∈ es) {st : RenderState σ}
    (hst : p.KeepsAlone engine es st.renderer) :
    p.KeepsAlone engine es (st.render p.host p.settings e.input e.explicit?).2.renderer ∧
      ((∃ a, (st.render p.host p.settings e.input e.explicit?).1 = .ok a ∧
          p.alone engine e = .ok a) ∨
        ∃ error, (st.render p.host p.settings e.input e.explicit?).1 = .error error ∧
          (error.isRenderFailure = true → p.alone engine e = .error error)) := by
  have halone := p.alone_eq engine e
  rw [← hengine (p.settings.request e.input) st.world] at halone
  rcases st.render_cases p.host p.settings e.input e.explicit? with ⟨a, ha, hrender⟩ | hrender
  · rw [hrender]
    exact ⟨hst, Or.inl ⟨a, rfl, hst _ ha e he rfl⟩⟩
  · rw [hrender]
    rcases st.renderNew_cases p.host p.settings (identifierOf e.explicit? e.input) e.input with
      ⟨a, hresult, houtcome, hcache⟩ | ⟨error, hresult, houtcome, hcache⟩
    · have ha := halone.trans houtcome
      exact ⟨hst.append (fun e' he' ↦ hnames e' he' e he) ha hcache, Or.inl ⟨a, hresult, ha⟩⟩
    · exact ⟨hst.of_cache_eq hcache, Or.inr ⟨error, hresult,
        fun hfailure ↦ halone.trans (houtcome hfailure)⟩⟩

/-! ### The invariant along a pass -/

variable (p engine)

/-- A step keeps the invariant and, where it returns something, returns what is expected. -/
def aloneRelation (es : List NamedInput) : EffectRelation (WorkM σ) Id where
  rel x y := ∀ g b g', p.KeepsAlone engine es g.rendering.renderer → x.run.run g = (.ok b, g') →
    p.KeepsAlone engine es g'.rendering.renderer ∧ b = y.run
  pure a := by
    intro g b g' hg h
    cases h
    exact ⟨hg, rfl⟩
  bind := by
    intro α β x y f k hx hf g b g' hg h
    obtain ⟨a, g₁, ha, hb⟩ := Fallible.run_bind_eq_ok h
    obtain ⟨hg₁, rfl⟩ := hx g a g₁ hg ha
    exact hf _ g₁ b g' hg₁ hb

variable {p engine} {es : List NamedInput}

theorem aloneRelation_count (change : Report → Report) :
    (p.aloneRelation engine es).rel (Work.count change) (pure ()) := by
  intro g b g' hg h
  cases h
  exact ⟨hg, rfl⟩

theorem aloneRelation_artifact? (hengine : p.host.Answers engine)
    (hnames : ∀ e ∈ es, ∀ e' ∈ es, e.identifier = e'.identifier → e.input = e'.input)
    {e : NamedInput} (he : e ∈ es) :
    (p.aloneRelation engine es).rel (Work.artifact? p e.input e.explicit?)
      (pure (p.alone engine e).toOption) := by
  intro g b g' hg h
  obtain ⟨hkeeps, hcases⟩ := render_alone hengine hnames he hg
  rcases Work.artifact?_cases p e.input e.explicit? g with
    ⟨a, st, hrender, hrun⟩ | ⟨error, st, hrender, hfailure, hrun⟩ | ⟨error, st, -, -, hrun⟩
  · rw [hrender] at hkeeps hcases
    obtain ⟨a', ha, halone⟩ | ⟨error, herror, -⟩ := hcases
    · cases ha
      cases hrun.symm.trans h
      rw [halone]
      exact ⟨hkeeps, rfl⟩
    · cases herror
  · rw [hrender] at hkeeps hcases
    obtain ⟨a, ha, -⟩ | ⟨error', herror, halone⟩ := hcases
    · cases ha
    · cases herror
      cases hrun.symm.trans h
      rw [halone hfailure]
      exact ⟨hkeeps, rfl⟩
  · cases hrun.symm.trans h

section Visits

variable (hengine : p.host.Answers engine)
  (hnames : ∀ e ∈ es, ∀ e' ∈ es, e.identifier = e'.identifier → e.input = e'.input)
include hengine hnames

theorem aloneRelation_math {m : MathBlock} (hm : ∀ e ∈ p.inputsAt (.math m), e ∈ es) :
    (p.aloneRelation engine es).rel (Work.math p m) ((p.aloneVisitor engine).math m) := by
  show (p.aloneRelation engine es).rel (Work.math p m) (pure (p.mathAlone engine m))
  rw [Work.math, mathAlone]
  cases hfound : p.typesettable? m with
  | none =>
    exact (p.aloneRelation engine es).bind_of_unit (aloneRelation_count _)
      ((p.aloneRelation engine es).pure _)
  | some found =>
    obtain ⟨dialect, latex⟩ := found
    have he : ⟨m.id, delimit latex false⟩ ∈ es := hm _ (by simp [inputsAt, hfound])
    refine (p.aloneRelation engine es).bind (aloneRelation_artifact? hengine hnames he)
      (g := fun a? ↦ pure ((a?.map (m.replacement p.options.embed dialect latex)).getD (.math m)))
      fun a? ↦ ?_
    cases a? with
    | none => exact (p.aloneRelation engine es).pure _
    | some a =>
      exact (p.aloneRelation engine es).bind_of_unit (aloneRelation_count _)
        ((p.aloneRelation engine es).pure _)

theorem aloneRelation_replace {attributes : Attributes} {o : Occurrence}
    (ho : p.inlineInput attributes o ∈ es) :
    (p.aloneRelation engine es).rel (Work.replace p attributes o)
      (pure (p.inlineAlone engine attributes o)) := by
  rw [Work.replace, inlineAlone]
  refine (p.aloneRelation engine es).bind (aloneRelation_artifact? hengine hnames ho)
    (g := fun a? ↦ pure (a?.map (·.inlineReplacement p.options.embed))) fun a? ↦ ?_
  cases a? with
  | none => exact (p.aloneRelation engine es).pure _
  | some a =>
    exact (p.aloneRelation engine es).bind_of_unit (aloneRelation_count _)
      ((p.aloneRelation engine es).pure _)

theorem aloneRelation_replaceEquations {attributes : Attributes} {text : String}
    (htext : ∀ e ∈ p.inputsAt (.text attributes text), e ∈ es) :
    (p.aloneRelation engine es).rel
      (replaceEquations p.options.dialect text (Work.replace p attributes))
      (pure (p.textAlone engine attributes text)) := by
  have hmem : ∀ o ∈ asked p.options.dialect text, p.inlineInput attributes o ∈ es :=
    fun o ho ↦ htext _ (List.mem_map_of_mem ho)
  have hanswers := (p.aloneRelation engine es).mapM fun o ho ↦
    aloneRelation_replace hengine hnames (hmem o ho)
  rw [replaceEquations_eq_map, textAlone, ← replacedBy_eq_answered _ _ _ (List.length_map _)]
  have h := (p.aloneRelation engine es).map (replacedBy p.options.dialect text) hanswers
  simpa using h

theorem aloneRelation_text {attributes : Attributes} {text : String}
    (htext : ∀ e ∈ p.inputsAt (.text attributes text), e ∈ es) :
    (p.aloneRelation engine es).rel (Work.text p attributes text)
      ((p.aloneVisitor engine).text attributes text) := by
  show (p.aloneRelation engine es).rel (Work.text p attributes text)
    (pure (if (p.textAlone engine attributes text).modified then
      some (p.textAlone engine attributes text).text else none))
  rw [Work.text]
  split
  · refine (p.aloneRelation engine es).bind_of_unit (aloneRelation_count _) ?_
    refine (p.aloneRelation engine es).bind
      (aloneRelation_replaceEquations hengine hnames htext)
      (g := fun new ↦ pure (if new.modified then some new.text else none)) fun new ↦ ?_
    refine (p.aloneRelation engine es).bind_of_unit (aloneRelation_count _) ?_
    split
    · exact (p.aloneRelation engine es).bind_of_unit (aloneRelation_count _)
        ((p.aloneRelation engine es).pure _)
    · exact (p.aloneRelation engine es).pure _
  · next hmay =>
    -- a text that is passed over has no occurrences, so that nothing changes in it alone
    have hscan : scan p.options.dialect text = [] := by rw [scan, if_neg hmay]
    have hmodified : (p.textAlone engine attributes text).modified = false := by
      simp [textAlone, answered, asked, hscan]
    rw [hmodified]
    exact (p.aloneRelation engine es).pure _

end Visits

/-! ### The whole pass -/

/-- **The cache is invisible.** For an engine whose answer depends on the request only, and a
document in which equations of one identifier have one input, a pass that succeeds leaves the
document in which each equation has been rendered alone. -/
theorem document_eq_alone (p : Pass σ) (engine : Engine) (d : Document) (world : σ)
    (hengine : p.host.Answers engine)
    (hnames : ∀ e ∈ p.inputs d, ∀ e' ∈ p.inputs d, e.identifier = e'.identifier →
      e.input = e'.input)
    (hok : ∃ report, (p.run d world).result = .ok report) :
    (p.run d world).document = p.documentAlone engine d := by
  obtain ⟨report, hreport⟩ := hok
  obtain ⟨g, htraversal, -⟩ := p.traversal_of_result hreport
  have hspots : ∀ x ∈ d.spots,
      x.Related (p.aloneRelation engine (p.inputs d)) p.visitor (p.aloneVisitor engine) := by
    intro x hx
    have hinputs : ∀ e ∈ p.inputsAt x, e ∈ p.inputs d := fun e he ↦ List.mem_flatMap_of_mem hx he
    cases x with
    | math m => exact aloneRelation_math hengine hnames hinputs
    | text attributes text => exact aloneRelation_text hengine hnames hinputs
    | nested =>
      exact aloneRelation_count fun r ↦ { r with nestedDocuments := r.nestedDocuments + 1 }
  exact (d.traverse_related _ hspots _ _ _ (keepsAlone_initial _) htraversal).2

/-- An engine that rejects what has a `y` in it. -/
def engineRejectingY : Engine :=
  Prepared.engine ⟨[⟨"y", .reject "no such letter"⟩], 1, 1, none, none⟩

/-- A pass that embeds what that engine makes. -/
def passRejectingY : Pass Unit where
  host := .writable engineRejectingY
  options := { Options.initial with dialect := .latex, format := .svg, embed := true }
  workingDirectory := ⟨"/"⟩

/-- A document in which an identifier, an inline equation and an equation that is rejected each
come up twice, the inline equation also in the document of a cell. -/
def repetitiveDocument : Document :=
  ⟨.empty,
    [.math ⟨some "a", none, "latexmath", "x", none⟩,
      .math ⟨some "a", none, "latexmath", " x ", none⟩,
      .prose ⟨none, none, "paragraph", ["stem:[z], stem:[y] and \\stem:[z]", "stem:[y]"], .normal⟩,
      .table ⟨none, none,
        [⟨[⟨.asciiDoc, "", some ⟨.empty, [.list ⟨none, none, .unordered '*',
          [⟨"stem:[z]", []⟩]⟩]⟩, 1, 1⟩]⟩], 0⟩]⟩

theorem document_eq_alone_of_repetition :
    passRejectingY.host.Answers engineRejectingY ∧
      (∀ e ∈ passRejectingY.inputs repetitiveDocument,
        ∀ e' ∈ passRejectingY.inputs repetitiveDocument, e.identifier = e'.identifier →
          e.input = e'.input) ∧
      (∃ report, (passRejectingY.run repetitiveDocument ()).result = .ok report) ∧
      (passRejectingY.run repetitiveDocument ()).document
        = passRejectingY.documentAlone engineRejectingY repetitiveDocument := by
  have hengine : passRejectingY.host.Answers engineRejectingY := fun _ _ ↦ rfl
  have hnames : ∀ e ∈ passRejectingY.inputs repetitiveDocument,
      ∀ e' ∈ passRejectingY.inputs repetitiveDocument, e.identifier = e'.identifier →
        e.input = e'.input := by decide +kernel
  have htraversal : (passRejectingY.traversal repetitiveDocument ()).1.isOk = true := by
    decide +kernel
  have hok : ∃ report, (passRejectingY.run repetitiveDocument ()).result = .ok report := by
    rcases h : passRejectingY.traversal repetitiveDocument () with ⟨error | new, g⟩
    · rw [h] at htraversal
      cases htraversal
    · exact ⟨_, (result_of_traversal _ h).1⟩
  exact ⟨hengine, hnames, hok, document_eq_alone _ _ _ _ hengine hnames hok⟩

end Pass

end DocumentMath
