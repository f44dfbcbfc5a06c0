import DocumentMath.Proofs.Document.Outcome
import DocumentMath.Proofs.Pass.Files
import DocumentMath.Proofs.Pass.Left
import DocumentMath.Proofs.Pass.Reconciled

/-!
# The form of what a pass emits

An artifact is put into a document in one of three *forms*: as a reference to a file with a size or
without one, or as markup. Every format has its forms (`Format.forms`), and with the options that
come of a document and of overrides a pass uses one of them throughout (`Pass.emits_one_form`):
for each block and each text that it changes, whatever the host does and whether or not the pass
fails. If the form is that of markup, no file is written.

The format and the mode of embedding are looked at in several places, by the renderer and by what
puts an artifact in its place. These agree because each artifact that is kept is what an answer of
the engine makes under its identifier (`Renderer.KeepsOutcomes`), and so it has the size and the
target that its form asks for.
-/

namespace DocumentMath

open Inline

variable {σ : Type}

/-! ### Forms -/

/-- A way of putting artifacts into a document. -/
inductive Form where
  /-- References to files, with a width and a height. -/
  | sizedImage
  /-- References to files, without a size. -/
  | image
  /-- The markup of the artifacts itself. -/
  | embedded
  deriving DecidableEq, Repr

/-- The forms there are for artifacts of a format. -/
def Format.forms : Format → List Form
  | .png => [.sizedImage]
  | .svg => [.image, .embedded]
  | .mathMl => [.embedded]

namespace RenderSettings

/-- The form of artifacts that are rendered so. -/
def form (s : RenderSettings) : Form :=
  if s.embed then .embedded else if s.format.isRaster then .sizedImage else .image

theorem embed_of_form {s : RenderSettings} (h : s.form = .embedded) : s.embed = true := by
  rw [form] at h
  split at h
  · assumption
  · split at h <;> cases h

/-- The target is that of a file for some identifier. -/
def IsTarget (s : RenderSettings) (target : String) : Prop :=
  ∃ identifier, target = s.location.target (s.fileName identifier)

/-- The text is that of bytes in the format. -/
def IsMarkup (s : RenderSettings) (markup : String) : Prop :=
  ∃ data, Image.detect data = .ok s.format ∧ markup = Text.decoded data

end RenderSettings

namespace Form

/-- The block shows an artifact in a form. -/
inductive IsBlock (s : RenderSettings) : Form → Block → Prop
  | sizedImage {i : ImageBlock} (target : s.IsTarget i.target) (width : i.width.isSome = true)
      (height : i.height.isSome = true) : IsBlock s sizedImage (.image i)
  | image {i : ImageBlock} (target : s.IsTarget i.target) (width : i.width = none)
      (height : i.height = none) : IsBlock s image (.image i)
  | embedded {b : PassthroughBlock} {markup : String} (h : s.IsMarkup markup)
      (content : b.content = "<div class=\"stemblock\"> " ++ markup ++ " </div>") :
      IsBlock s embedded (.passthrough b)

/-- The text shows an artifact in a form. -/
inductive IsText (s : RenderSettings) : Form → String → Prop
  | sizedImage {target : String} (h : s.IsTarget target) (width height : UInt32) :
      IsText s sizedImage ("image:" ++ target ++
        ("[width=" ++ toString width.toNat ++ ",height=" ++ toString height.toNat ++ "]"))
  | image {target : String} (h : s.IsTarget target) : IsText s image ("image:" ++ target ++ "[]")
  | embedded {markup : String} (h : s.IsMarkup markup) :
      IsText s embedded ("pass:[<span class=\"steminline\">" ++ markup ++ "</span>]")

end Form

/-! ### Artifacts -/

section Outcome

variable {s : RenderSettings} {identifier : String} {answer : Except Error EngineOutput}
  {a : Artifact} (h : s.outcome identifier answer = .ok a)
include h

theorem RenderSettings.isTarget_of_outcome (hembed : s.embed = false) :
    s.IsTarget (a.target?.getD "") :=
  ⟨identifier, by rw [target?_of_outcome hembed h, Option.getD_some]⟩

theorem RenderSettings.isMarkup_of_outcome : s.IsMarkup a.markup :=
  ⟨a.data, detect_of_outcome h, rfl⟩

/-- What takes the place of a math block has the form. -/
theorem MathBlock.isBlock_replacement (m : MathBlock) (dialect : Dialect) (latex : String) :
    s.form.IsBlock s (m.replacement s.embed dialect latex a) := by
  obtain ⟨hwidth, hheight⟩ := RenderSettings.isSome_size_of_outcome h
  rw [replacement, RenderSettings.form]
  cases hembed : s.embed with
  | true => exact .embedded (RenderSettings.isMarkup_of_outcome h) rfl
  | false =>
    have htarget := RenderSettings.isTarget_of_outcome h hembed
    cases hraster : s.format.isRaster <;> rw [hraster] at hwidth hheight
    · rw [Option.isSome_eq_false_iff, Option.isNone_iff_eq_none] at hwidth hheight
      exact .image htarget hwidth hheight
    · exact .sizedImage htarget hwidth hheight

/-- What takes the place of an inline equation has the form. -/
theorem Artifact.isText_inlineReplacement : s.form.IsText s (a.inlineReplacement s.embed) := by
  obtain ⟨hwidth, hheight⟩ := RenderSettings.isSome_size_of_outcome h
  rw [inlineReplacement, RenderSettings.form]
  cases hembed : s.embed with
  | true => exact .embedded (RenderSettings.isMarkup_of_outcome h)
  | false =>
    have htarget := RenderSettings.isTarget_of_outcome h hembed
    show Form.IsText s _ a.imageReference
    rw [imageReference]
    cases hraster : s.format.isRaster <;> rw [hraster] at hwidth hheight
    · rw [Option.isSome_eq_false_iff, Option.isNone_iff_eq_none] at hwidth
      rw [hwidth]
      exact .image htarget
    · obtain ⟨width, hwidth⟩ := Option.isSome_iff_exists.mp hwidth
      obtain ⟨height, hheight⟩ := Option.isSome_iff_exists.mp hheight
      rw [hwidth, hheight]
      exact .sizedImage htarget width height

end Outcome

namespace Pass

/-! ### The work of a pass -/

/-- A result has a property, if each artifact that was kept before it is what an answer makes; and
then that is so afterwards, too. -/
def outcomeRule (p : Pass σ) : EffectRule (WorkM σ) where
  holds x Q := ∀ g b g', g.rendering.renderer.KeepsOutcomes p.settings →
    x.run.run g = (.ok b, g') → g'.rendering.renderer.KeepsOutcomes p.settings ∧ Q b
  pure := by
    intro α a Q ha g b g' hg h
    cases h
    exact ⟨hg, ha⟩
  bind := by
    intro α β x f Q S hx hf g b g' hg h
    obtain ⟨a, g₁, ha, hb⟩ := Fallible.run_bind_eq_ok h
    obtain ⟨hg₁, hQ⟩ := hx g a g₁ hg ha
    obtain ⟨hg', hS⟩ := hf a g₁ b g' hg₁ hb
    exact ⟨hg', hS hQ⟩
  mono := by
    intro α x Q S hx hQS g b g' hg h
    exact (hx g b g' hg h).imp_right (hQS b)

variable {p : Pass σ}

theorem outcomeRule_count (change : Report → Report) :
    p.outcomeRule.holds (Work.count change) fun _ ↦ True := by
  intro g b g' hg h
  cases h
  exact ⟨hg, trivial⟩

theorem outcomeRule_artifact? (input : String) (explicit? : Option String) :
    p.outcomeRule.holds (Work.artifact? p input explicit?) fun a? ↦
      ∀ a ∈ a?, ∃ answer, p.settings.outcome (identifierOf explicit? input) answer = .ok a := by
  intro g b g' hg h
  rcases Work.artifact?_cases p input explicit? g with
    ⟨a, st, hrender, hrun⟩ | ⟨error, st, hrender, -, hrun⟩ | ⟨error, st, -, -, hrun⟩ <;>
    cases hrun.symm.trans h
  · obtain ⟨hst, houtcome⟩ := RenderState.keepsOutcomes_of_render_ok hg hrender
    refine ⟨hst, ?_⟩
    rintro a' ⟨⟩
    exact houtcome
  · exact ⟨RenderState.keepsOutcomes_of_render_error hg hrender,
      fun a ha ↦ absurd ha (Option.not_mem_none a)⟩

/-- A math block stays, or a block of the form takes its place. -/
theorem outcomeRule_math (m : MathBlock) :
    p.outcomeRule.holds (Work.math p m) fun b ↦
      b = .math m ∨ p.settings.form.IsBlock p.settings b := by
  rw [Work.math]
  cases p.typesettable? m with
  | none =>
    exact p.outcomeRule.bind (outcomeRule_count _) fun _ ↦ p.outcomeRule.pure fun _ ↦ .inl rfl
  | some found =>
    obtain ⟨dialect, latex⟩ := found
    refine p.outcomeRule.bind (outcomeRule_artifact? _ _) fun a? ↦ ?_
    cases a? with
    | none => exact p.outcomeRule.pure fun _ ↦ .inl rfl
    | some a =>
      refine p.outcomeRule.bind (outcomeRule_count _) fun _ ↦
        p.outcomeRule.pure fun _ houtcome ↦ .inr ?_
      obtain ⟨answer, ha⟩ := houtcome a rfl
      exact MathBlock.isBlock_replacement ha m dialect latex

/-- The text shows what an answer makes of an inline equation. -/
def ShowsEquation (p : Pass σ) (attributes : Attributes) (o : Occurrence) (new : String) : Prop :=
  ∃ answer a, p.settings.outcome (identifierOf none (p.equationOf attributes o).input) answer
    = .ok a ∧ new = a.inlineReplacement p.options.embed

/-- What takes the place of an inline equation shows it. -/
theorem outcomeRule_replace (attributes : Attributes) (o : Occurrence) :
    p.outcomeRule.holds (Work.replace p attributes o) fun new? ↦
      ∀ new ∈ new?, p.ShowsEquation attributes o new := by
  rw [Work.replace]
  refine p.outcomeRule.bind (outcomeRule_artifact? _ _) fun a? ↦ ?_
  cases a? with
  | none =>
    exact p.outcomeRule.pure fun _ new hnew ↦ absurd hnew (Option.not_mem_none new)
  | some a =>
    refine p.outcomeRule.bind (outcomeRule_count _) fun _ ↦
      p.outcomeRule.pure fun _ houtcome ↦ ?_
    rintro new ⟨⟩
    obtain ⟨answer, ha⟩ := houtcome a rfl
    exact ⟨answer, a, ha, rfl⟩

/-- Some of the equations of a text that are asked about have been replaced by texts that show them,
and the others have been left as they are written. -/
def IsFilled (p : Pass σ) (attributes : Attributes) (text new : String) : Prop :=
  ∃ answers, List.Forall₂ (fun o new? ↦ ∀ new ∈ new?, p.ShowsEquation attributes o new)
      (asked p.options.dialect text) answers ∧
    new = (answered p.options.dialect text answers).text

theorem outcomeRule_text (attributes : Attributes) (text : String) :
    p.outcomeRule.holds (Work.text p attributes text) fun new? ↦
      ∀ new ∈ new?, p.IsFilled attributes text new := by
  rw [Work.text]
  split
  · refine p.outcomeRule.bind (outcomeRule_count _) fun _ ↦ ?_
    rw [replaceEquations_eq_map]
    refine p.outcomeRule.bind (Q := fun new ↦ p.IsFilled attributes text new.text)
      (p.outcomeRule.map
        (p.outcomeRule.mapM_forall₂ fun o _ ↦ outcomeRule_replace attributes o)
        fun answers hanswers ↦ ?_) fun new ↦ ?_
    · exact ⟨answers, hanswers,
        congrArg Replaced.text (replacedBy_eq_answered _ _ _ hanswers.length_eq.symm)⟩
    · refine p.outcomeRule.bind (outcomeRule_count _) fun _ ↦ ?_
      split
      · refine p.outcomeRule.bind (outcomeRule_count _) fun _ ↦
          p.outcomeRule.pure fun _ _ hnew _ ↦ ?_
        rintro - ⟨⟩
        exact hnew
      · exact p.outcomeRule.pure fun _ _ _ new hnew ↦ absurd hnew (Option.not_mem_none new)
  · exact p.outcomeRule.pure fun new hnew ↦ absurd hnew (Option.not_mem_none new)

/-- Some of the equations of a text that are asked about have been replaced by texts of a form, and
the others have been left as they are written. -/
def IsAnswered (p : Pass σ) (form : Form) (text new : String) : Prop :=
  ∃ answers, answers.length = (asked p.options.dialect text).length ∧
    (∀ new? ∈ answers, ∀ new ∈ new?, form.IsText p.settings new) ∧
    new = (answered p.options.dialect text answers).text

/-- What shows an equation has the form. -/
theorem IsFilled.isAnswered {attributes : Attributes} {text new : String}
    (h : p.IsFilled attributes text new) : p.IsAnswered p.settings.form text new := by
  obtain ⟨answers, hanswers, hnew⟩ := h
  refine ⟨answers, hanswers.length_eq.symm, forall_mem_of_forall₂ (hanswers.imp ?_), hnew⟩
  intro o new? hshows new hnew
  obtain ⟨answer, a, ha, rfl⟩ := hshows new hnew
  exact Artifact.isText_inlineReplacement ha

theorem outcomeRule_workAt (attributes : Attributes) {kind : CandidateKind} {n : Node}
    (hkind : n.candidateKind? = some kind) :
    p.outcomeRule.holds (p.workAt attributes kind n) fun _ ↦ True := by
  rcases Node.candidate_cases hkind with ⟨m, rfl, rfl⟩ | rfl | ⟨htext, text, htextOf⟩
  · exact p.outcomeRule.map (outcomeRule_math m) fun _ _ ↦ trivial
  · rw [workAt]
    exact p.outcomeRule.map (outcomeRule_count fun r ↦
      { r with nestedDocuments := r.nestedDocuments + 1 }) fun _ _ ↦ trivial
  · rw [workAt_text htext htextOf]
    exact p.outcomeRule.map (outcomeRule_text attributes text) fun _ _ ↦ trivial

/-- At every point of a pass, each artifact that is kept is what an answer makes. -/
theorem Reaches.keepsOutcomes {d : Document} {world : σ} {done later : List Site}
    {st : PassState σ} (h : p.Reaches d world done later st) :
    st.rendering.renderer.KeepsOutcomes p.settings := by
  induction h with
  | start => exact Renderer.keepsOutcomes_initial _
  | visit h hvisit ih =>
    obtain ⟨n, -, hn, hkind⟩ := h.exists_node List.mem_cons_self
    rcases work_of_visit hn hkind hvisit with ⟨-, n', hwork, -⟩ | ⟨e, he, -⟩
    · exact (outcomeRule_workAt _ hkind _ _ _ ih hwork).1
    · cases he

/-! ### The whole pass -/

/-- A pass over a document uses a single form for all that it emits. -/
structure EmitsOnly (p : Pass σ) (form : Form) (d : Document) (world : σ) : Prop where
  /-- The engine is asked for one format, at a resolution that is finite and positive. Only raster
  images have one of their own. -/
  requests : ∀ r ∈ p.requests d world, r.format = p.options.format ∧
    r.resolution.isFinite = true ∧ 0.0 < r.resolution ∧
    (r.format.isRaster = false → r.resolution = 72.0)
  /-- A math block stays, or a block of the form takes its place. -/
  blocks : ∀ s ∈ d.sites, ∀ m, s.blockIn? d = some (.math m) →
    ∃ b, s.blockIn? (p.run d world).document = some b ∧
      (b = .math m ∨ form.IsBlock p.settings b)
  /-- A text stays, or texts of the form take the places of some of its equations. -/
  texts : ∀ s ∈ d.sites, ∀ text, s.textIn? d = some text →
    ∃ new, s.textIn? (p.run d world).document = some new ∧
      (new = text ∨ p.IsAnswered form text new)
  /-- If artifacts are embedded, the host is called for nothing but to typeset. -/
  calls : form = .embedded → ∀ c ∈ p.calls d world, ∃ r, c = .typeset r

theorem form_mem_forms (h : p.options.IsReconciled) : p.settings.form ∈ p.options.format.forms := by
  have hraster := h.raster
  have hmarkup := h.markup
  show (if p.options.embed then Form.embedded
    else if p.options.format.isRaster then .sizedImage else .image) ∈ _
  cases hformat : p.options.format <;> rw [hformat] at hraster hmarkup
  · rw [hraster rfl]
    decide
  · cases p.options.embed <;> decide
  · rw [hmarkup rfl]
    decide

/-- A pass with options that do not contradict one another uses a single form. -/
theorem emitsOnly_of_isReconciled (h : p.options.IsReconciled) (d : Document) (world : σ) :
    p.EmitsOnly p.settings.form d world where
  requests r hr := by
    obtain ⟨e, -, rfl⟩ := p.exists_input_of_mem_requests d world r hr
    obtain ⟨hfinite, hpositive⟩ := Options.isUsable_iff.mp h.isUsable_effectiveResolution
    exact ⟨rfl, hfinite, hpositive, Options.effectiveResolution_of_not_isRaster⟩
  blocks s hs m hm := by
    obtain ⟨b, hb, rfl | ⟨done, later, st, g, hreaches, hwork⟩⟩ := p.left_math world hs hm
    · exact ⟨_, hb, .inl rfl⟩
    · exact ⟨b, hb, (outcomeRule_math m _ _ _ hreaches.keepsOutcomes hwork).2⟩
  texts s hs text htext := by
    obtain ⟨new?, hnew, rfl | ⟨done, later, st, g, hreaches, hwork⟩⟩ := p.left_text world hs htext
    · exact ⟨_, hnew, .inl rfl⟩
    · refine ⟨_, hnew, ?_⟩
      have hfilled := (outcomeRule_text _ text _ _ _ hreaches.keepsOutcomes hwork).2
      cases new? with
      | none => exact .inl rfl
      | some new => exact .inr (hfilled new rfl).isAnswered
  calls hform c hc := by
    obtain ⟨e, -, rfl | ⟨hembed, -⟩⟩ := p.mem_calls_cases d world c hc
    · exact ⟨_, rfl⟩
    · have hembedded := RenderSettings.embed_of_form hform
      exact absurd (hembedded.symm.trans hembed) (by decide)

/-- **One form throughout.** With the options that come of a document and of overrides, a pass over
the document uses one form for everything it emits, and that is a form of the format. -/
theorem emits_one_form (host : Host σ) (workingDirectory : Path) (v : Overrides) (d : Document)
    (world : σ) : ∃ form ∈ (v.optionsFor d).format.forms,
      EmitsOnly ⟨host, v.optionsFor d, workingDirectory⟩ form d world :=
  have h := v.isReconciled_optionsFor d
  ⟨_, form_mem_forms (p := ⟨host, v.optionsFor d, workingDirectory⟩) h,
    emitsOnly_of_isReconciled h d world⟩

end Pass

end DocumentMath
