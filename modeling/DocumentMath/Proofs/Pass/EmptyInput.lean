import DocumentMath.Proofs.Equation
import DocumentMath.Proofs.Pass.Files
import DocumentMath.Proofs.Pass.Left

/-!
# Requests with nothing to typeset

A math block is skipped if its LaTeX is empty, and so it is never typeset (`Pass.bare_requests`).
For an inline equation it is the payload that is looked at, before it is written as LaTeX and goes
through its substitutions. What comes of it may still be empty, and then the engine is asked to
typeset nothing between delimiters (`Pass.bare_request_of_invisible`).
-/

namespace DocumentMath

/-! ### Delimiters with nothing between them -/

/-- A text that consists of delimiters only. -/
def IsBare (input : String) : Prop :=
  input = delimit "" true ∨ input = delimit "" false

theorem isBare_display {latex : String} : IsBare (delimit latex false) ↔ latex = "" := by
  rw [IsBare, delimit_inj, eq_comm, delimit_inline_eq_display, or_iff_right]
  intro h
  have hlength := congrArg String.length h
  rw [String.length_append, String.length_append] at hlength
  have hdollar : "$".length = 1 := rfl
  have hnothing : "".length = 0 := rfl
  omega

/-- An inline equation consists of delimiters only if it is empty, or if all of it are dollar signs
of its own. -/
theorem isBare_inline {latex : String} :
    IsBare (delimit latex true) ↔ latex = "" ∨ latex = "$$" := by
  rw [IsBare, delimit_inj, delimit_inline_eq_display]
  rfl

namespace Pass

variable {σ : Type}

/-- A math block without LaTeX is skipped. -/
theorem latex_ne_of_typesettable? {p : Pass σ} {m : MathBlock} {dialect : Dialect} {latex : String}
    (h : p.typesettable? m = some (dialect, latex)) : latex ≠ "" := by
  obtain ⟨dialect', -, hsome⟩ := Option.bind_eq_some_iff.mp h
  simp only at hsome
  split at hsome
  · cases hsome
  · next hne =>
    cases hsome
    rintro heq
    exact hne (by rw [heq]; rfl)

/-- **Only an inline equation is ever typeset without anything between its delimiters**: one whose
payload is not blank, but whose LaTeX is empty after all its substitutions, or a pair of dollar
signs. A math block without LaTeX is left as it is. -/
theorem bare_requests (p : Pass σ) (d : Document) (world : σ) :
    (∀ r ∈ p.requests d world, IsBare r.input →
      ∃ attributes text, .text attributes text ∈ d.spots ∧
        ∃ o ∈ Inline.asked p.options.dialect text, r.input = (p.equationOf attributes o).input ∧
          ((p.equationOf attributes o).latex = "" ∨ (p.equationOf attributes o).latex = "$$")) ∧
    ∀ s ∈ d.sites, ∀ m, s.blockIn? d = some (.math m) →
      (∀ dialect, Dialect.ofStyle? m.style p.options.dialect = some dialect →
        canonicalLatex dialect m.content = "") →
      s.blockIn? (p.run d world).document = some (.math m) := by
  constructor
  · intro r hr hbare
    obtain ⟨e, he, rfl⟩ := p.exists_input_of_mem_requests d world r hr
    obtain ⟨x, hx, hinput⟩ := List.mem_flatMap.mp he
    cases x with
    | math m =>
      obtain ⟨⟨dialect, latex⟩, hfound, rfl⟩ := List.mem_map.mp hinput
      obtain rfl : latex = "" := isBare_display.mp hbare
      exact absurd rfl (latex_ne_of_typesettable? (Option.mem_toList.mp hfound))
    | text attributes text =>
      obtain ⟨o, ho, rfl⟩ := List.mem_map.mp hinput
      exact ⟨attributes, text, hx, o, ho, rfl, isBare_inline.mp hbare⟩
    | nested => cases hinput
  · intro s hs m hm hempty
    have hnone : p.typesettable? m = none := by
      rw [typesettable?, Option.bind_eq_none_iff]
      intro dialect hdialect
      rw [hempty dialect hdialect]
      rfl
    obtain ⟨b, hb, rfl | ⟨done, later, st, g, -, hwork⟩⟩ := p.left_math world hs hm
    · exact hb
    · rw [Work.math, hnone] at hwork
      cases hwork
      exact hb

/-- A pass for AsciiMath. -/
def passForAsciiMath : Pass Unit where
  host := .writable (Prepared.engine ⟨[], 1, 1, none, none⟩)
  options := { Options.initial with format := .svg, embed := true }
  workingDirectory := ⟨"/"⟩

/-- A document with invisible brackets as a math block and as an inline equation. -/
def invisibleDocument : Document :=
  ⟨.empty,
    [.math ⟨none, none, "stem", "\x7b: :\x7d", none⟩,
      .prose ⟨none, none, "paragraph", ["a stem:[\x7b: :\x7d] b"], .normal⟩]⟩

theorem inputs_invisible :
    (passForAsciiMath.requests invisibleDocument ()).map Request.input = ["$$"] := by
  rw [requests, calls, (passForAsciiMath.recording.run_eq_traverse invisibleDocument ((), [])).2.1]
  decide +kernel

/-- The math block is left as it is, and the inline equation is typeset. -/
theorem bare_requests_of_invisible :
    (∃ r ∈ passForAsciiMath.requests invisibleDocument (), IsBare r.input ∧
      ∃ attributes text, .text attributes text ∈ invisibleDocument.spots ∧
        ∃ o ∈ Inline.asked passForAsciiMath.options.dialect text,
          r.input = (passForAsciiMath.equationOf attributes o).input ∧
            ((passForAsciiMath.equationOf attributes o).latex = "" ∨
              (passForAsciiMath.equationOf attributes o).latex = "$$")) ∧
    ∃ s ∈ invisibleDocument.sites, ∃ m, s.blockIn? invisibleDocument = some (.math m) ∧
      s.blockIn? (passForAsciiMath.run invisibleDocument ()).document = some (.math m) := by
  obtain ⟨hrequests, hblocks⟩ := passForAsciiMath.bare_requests invisibleDocument ()
  constructor
  · obtain ⟨r, hr, hinput⟩ : ∃ r ∈ passForAsciiMath.requests invisibleDocument (),
        r.input = "$$" := by
      rw [← List.mem_map, inputs_invisible]
      exact List.mem_cons_self
    have hbare : IsBare r.input := .inl hinput
    exact ⟨r, hr, hbare, hrequests r hr hbare⟩
  · have hmem : ([], ⟨[.block 0], .mathBlock⟩)
        ∈ invisibleDocument.sites.map fun s ↦ (s.within, s.candidate) := by
      decide +kernel
    obtain ⟨⟨within, candidate, attributes⟩, hs, heq⟩ := List.mem_map.mp hmem
    obtain ⟨rfl, rfl⟩ := Prod.mk.inj heq
    refine ⟨_, hs, _, rfl, hblocks _ hs _ rfl ?_⟩
    rintro dialect ⟨⟩
    decide +kernel

/-- An inline equation is typeset though nothing is visible of it. -/
theorem bare_request_of_invisible :
    ¬ ∀ r ∈ passForAsciiMath.requests invisibleDocument (), ¬ IsBare r.input := by
  intro h
  obtain ⟨r, hr, hinput⟩ : ∃ r ∈ passForAsciiMath.requests invisibleDocument (),
      r.input = "$$" := by
    rw [← List.mem_map, inputs_invisible]
    exact List.mem_cons_self
  exact h r hr (.inl hinput)

end Pass

end DocumentMath
