import DocumentMath.Proofs.Document.Spots
import DocumentMath.Proofs.Pass.Reach
import DocumentMath.Proofs.Pass.Recording

/-!
# The default notation

An equation takes the default notation only if it is written under the generic name, and a math
block only if it has the generic style. So where a document has neither (`Document.NamesNotations`),
the documents in its cells included, the default makes no difference: passes that differ in nothing
else cannot be told apart, not by what they return, leave or write, and not by what they ask the
engine for (`Pass.run_withDialect`).

A document has at its sites what it has at its spots (`Document.map_spotIn?_sites`), so that the
condition can be told of the spots. A visit finds what stood at its site before the pass
(`Pass.Reaches.exists_node`), although the visits before it have changed the document; so a
condition on the document as it was given is enough.
-/

namespace DocumentMath

variable {σ : Type}

/-! ### Names and styles -/

theorem MacroName.dialect_of_ne_stem {name : MacroName} (h : name ≠ .stem)
    (default default' : Dialect) : name.dialect default' = name.dialect default := by
  cases name with
  | stem => exact absurd rfl h
  | latexmath => rfl
  | asciimath => rfl

theorem Dialect.ofStyle?_of_ne_stem {style : String} (h : style ≠ "stem")
    (default default' : Dialect) : ofStyle? style default' = ofStyle? style default := by
  unfold ofStyle?
  split
  · rfl
  · rfl
  · exact absurd rfl h
  · rfl

/-! ### Texts -/

namespace Inline

variable {default : Dialect}

/-- Replacing does not depend on the default if no equation takes it. -/
theorem replacePieces_of_ne_stem {m : Type → Type} [Monad m]
    {replace : Occurrence → m (Option String)} {offset : Nat} {ps : List Piece}
    (h : ∀ o ∈ occurrencesOf default offset ps, o.name ≠ .stem) (default' : Dialect) :
    replacePieces default' replace offset ps = replacePieces default replace offset ps := by
  induction ps generalizing offset with
  | nil => rfl
  | cons piece ps ih =>
    cases piece with
    | plain c =>
      rw [replacePieces, replacePieces, ih h]
    | equation w =>
      rw [occurrencesOf, List.forall_mem_cons] at h
      have hdialect : w.name.dialect default' = w.name.dialect default :=
        MacroName.dialect_of_ne_stem h.1 default default'
      rw [replacePieces, replacePieces, ih h.2, Written.occurrence, Written.occurrence, hdialect]

theorem replaceEquations_of_ne_stem {m : Type → Type} [Monad m]
    {replace : Occurrence → m (Option String)} {text : String}
    (h : ∀ o ∈ scan default text, o.name ≠ .stem) (default' : Dialect) :
    replaceEquations default' text replace = replaceEquations default text replace := by
  rw [replaceEquations, replaceEquations]
  split
  · next hmay =>
    rw [scan, if_pos hmay] at h
    rw [replacePieces_of_ne_stem h]
  · rfl

end Inline

/-! ### Documents that name their notations -/

/-- What stands at a place does not take the default notation. -/
def Spot.NamesNotation (default : Dialect) : Spot → Prop
  | .math m => m.style ≠ "stem"
  | .text _ t => ∀ o ∈ Inline.scan default t, o.name ≠ .stem
  | .nested => True

instance (default : Dialect) (x : Spot) : Decidable (x.NamesNotation default) :=
  match x with
  | .math m => inferInstanceAs (Decidable (m.style ≠ "stem"))
  | .text _ text => inferInstanceAs (Decidable (∀ o ∈ Inline.scan default text, o.name ≠ .stem))
  | .nested => inferInstanceAs (Decidable True)

/-- No math block of the document has the generic style, and no text of it an equation, escaped or
not, under the generic name; the documents in its cells included. -/
def Document.NamesNotations (default : Dialect) (d : Document) : Prop :=
  ∀ x ∈ d.spots, x.NamesNotation default

instance (default : Dialect) (d : Document) : Decidable (d.NamesNotations default) :=
  inferInstanceAs (Decidable (∀ x ∈ d.spots, x.NamesNotation default))

namespace Document.NamesNotations

variable {default : Dialect} {d : Document} {s : Site}

theorem of_spotIn? (h : d.NamesNotations default) (hs : s ∈ d.sites) {x : Spot}
    (hx : s.spotIn? d = some x) : x.NamesNotation default := by
  have hmem : s.spotIn? d ∈ d.spots.map some :=
    d.map_spotIn?_sites ▸ List.mem_map_of_mem hs
  obtain ⟨y, hy, hspot⟩ := List.mem_map.mp hmem
  rw [hx] at hspot
  cases hspot
  exact h x hy

end Document.NamesNotations

namespace Pass

/-- The pass with another default notation. -/
def withDialect (p : Pass σ) (dialect : Dialect) : Pass σ :=
  { p with options := { p.options with dialect } }

/-! ### Visits -/

section Visits

variable (p : Pass σ) (dialect : Dialect) (s : Site)

theorem visitMath_withDialect {m : MathBlock} (h : m.style ≠ "stem") :
    (p.withDialect dialect).visitMath s m = p.visitMath s m := by
  have hfound : (p.withDialect dialect).typesettable? m = p.typesettable? m :=
    congrArg (Option.bind · _) (Dialect.ofStyle?_of_ne_stem h p.options.dialect dialect)
  rw [visitMath, visitMath, hfound]
  rfl

theorem visitText_withDialect {text : String}
    (h : ∀ o ∈ Inline.scan p.options.dialect text, o.name ≠ .stem) :
    (p.withDialect dialect).visitText s text = p.visitText s text := by
  -- what is made of an equation is settled by its own notation
  have hreplace : (p.withDialect dialect).replace s.attributes = p.replace s.attributes := rfl
  rw [visitText, visitText, hreplace,
    Inline.replaceEquations_of_ne_stem h (p.withDialect dialect).options.dialect]

/-- A visit of a site that leads to a node of its kind does not depend on the default if what stands
there does not take it. -/
theorem run_visit_withDialect {n : Node} {st : PassState σ} (hn : s.nodeIn? st.document = some n)
    (hkind : n.candidateKind? = some s.candidate.kind)
    (h : ∀ x, n.spot? s.attributes s.candidate.kind = some x →
      x.NamesNotation p.options.dialect) :
    ((p.withDialect dialect).visit s).run.run st = (p.visit s).run.run st := by
  rcases n.candidate_cases hkind with ⟨m, hmath, rfl⟩ | hnested | ⟨htext, text, htextOf⟩
  · have hm : m.style ≠ "stem" := h (.math m) (by rw [hmath]; rfl)
    refine ((p.withDialect dialect).run_visit_math hmath hn st.report st.rendering).trans ?_
    rw [visitMath_withDialect p dialect s hm]
    exact (p.run_visit_math hmath hn st.report st.rendering).symm
  · rw [visit, visit]
    simp only [hnested]
  · have ht : ∀ o ∈ Inline.scan p.options.dialect text, o.name ≠ .stem :=
      h (.text s.attributes text) (Node.spot?_text htext htextOf)
    refine ((p.withDialect dialect).run_visit_text htext hn htextOf st.report st.rendering).trans ?_
    rw [visitText_withDialect p dialect s ht]
    exact (p.run_visit_text htext hn htextOf st.report st.rendering).symm

end Visits

/-! ### Steps -/

variable {p : Pass σ} {d : Document}

theorem steps_withDialect (h : d.NamesNotations p.options.dialect) (dialect : Dialect) (world : σ) :
    (p.withDialect dialect).steps d world = p.steps d world := by
  refine Fallible.forM_congr (P := fun later st ↦ ∃ done, p.Reaches d world done later st)
    ?_ ?_ ⟨[], .start⟩
  · rintro s later st st' ⟨done, hreaches⟩ hvisit
    exact ⟨done ++ [s], hreaches.visit hvisit⟩
  · rintro s later st ⟨done, hreaches⟩
    -- the site leads to what stood there before the pass, and that is one of the spots
    obtain ⟨n, hnd, hn, hkind⟩ := hreaches.exists_node List.mem_cons_self
    refine run_visit_withDialect p dialect s hn hkind fun x hx ↦ ?_
    refine h.of_spotIn? (hreaches.mem_sites List.mem_cons_self) ?_
    rw [Site.spotIn?, hnd, Option.bind_some, hx]

theorem outcome_withDialect (h : d.NamesNotations p.options.dialect) (dialect : Dialect)
    (world : σ) : (p.withDialect dialect).run d world = p.run d world := by
  rw [run, run, steps_withDialect h]

/-! ### Main result -/

/-- **Equations that name their notation do not depend on the default.** Where no equation takes the
default notation, passes that differ in it only have the same outcome: the same report or the same
error, the same document, also when they fail, and the same surroundings. And they make the same
calls on the way, so that they ask the engine for the same and write the same files. -/
theorem run_withDialect (p : Pass σ) (dialect : Dialect) (d : Document)
    (h : d.NamesNotations p.options.dialect) (world : σ) :
    (p.withDialect dialect).run d world = p.run d world ∧
      (p.withDialect dialect).calls d world = p.calls d world :=
  -- the pass that writes down its calls has the same options
  ⟨outcome_withDialect h dialect world,
    congrArg (·.world.2) (outcome_withDialect (p := p.recording) h dialect (world, []))⟩

/-- A section with equations of either notation in its title, in a block and in the document of a
cell. -/
def sectionWithNotations : Document :=
  ⟨.empty,
    [.sect ⟨"s", 1, "On latexmath:[a] and asciimath:[a]",
      [.table ⟨none, none,
        [⟨[⟨.asciiDoc, "", some ⟨.empty,
          [.prose ⟨none, none, "paragraph", ["asciimath:[b], \\latexmath:c[b]"], .normal⟩,
            .math ⟨none, none, "asciimath", "c", none⟩]⟩,
          1, 1⟩]⟩], 0⟩,
        .math ⟨none, none, "latexmath", "d", none⟩], none⟩]⟩

/-- There is room for two files, so that either pass fails in the document of the cell. -/
theorem run_withDialect_sectionWithNotations :
    sectionWithNotations.NamesNotations passWithRoom.options.dialect ∧
      (passWithRoom.withDialect .asciiMath).run sectionWithNotations 2
          = passWithRoom.run sectionWithNotations 2 ∧
        (passWithRoom.withDialect .asciiMath).calls sectionWithNotations 2
          = passWithRoom.calls sectionWithNotations 2 := by
  have h : sectionWithNotations.NamesNotations passWithRoom.options.dialect := by decide +kernel
  exact ⟨h, run_withDialect passWithRoom .asciiMath sectionWithNotations h 2⟩

end Pass

end DocumentMath
