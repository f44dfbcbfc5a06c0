import DocumentMath.Pass.Run
import DocumentMath.Proofs.Document.Traversal
import DocumentMath.Proofs.Fallible
import DocumentMath.Proofs.Inline.Splice
import DocumentMath.Proofs.Render.Recording

/-!
# A pass with other surroundings

A pass makes nothing of the states of its surroundings but to hand them on. So with a host that
looks like its own it does what it does with its own, also when it fails (`Pass.run_seen`). That is
a relation of effects, `Fallible.seen`, which holds of each step and so of the whole.
-/

namespace DocumentMath

variable {σ τ : Type}

/-! ### Seeing states -/

/-- Two actions that may fail are alike, if the states of the first are seen in a certain way. -/
def Fallible.seen {ε S T : Type} (see : S → T) :
    EffectRelation (ExceptT ε (StateM S)) (ExceptT ε (StateM T)) where
  rel x y := ∀ s, y.run.run (see s) = (x.run.run s).map id see
  pure _ _ := rfl
  bind := by
    intro α β x y f g hxy hfg s
    have hy := hxy s
    -- both end alike, and what follows goes on from a state and from what is seen of it
    rcases hx : x.run.run s with ⟨e | a, s'⟩ <;> rw [hx] at hy
    · rw [run_bind_of_error hx, run_bind_of_error hy]
      rfl
    · rw [run_bind_of_ok hx, run_bind_of_ok hy]
      exact hfg a s'

/-- The state of a pass whose surroundings are seen in a certain way. -/
def PassState.seen (see : τ → σ) (st : PassState τ) : PassState σ :=
  ⟨st.document, st.report, st.rendering.seen see⟩

/-- The outcome of a pass whose surroundings are seen in a certain way. -/
def Outcome.seen (see : τ → σ) (o : Outcome τ) : Outcome σ :=
  ⟨o.result, o.document, see o.world⟩

namespace Pass

/-- The pass with other surroundings. -/
def withHost (p : Pass σ) (host : Host τ) : Pass τ :=
  ⟨host, p.options, p.workingDirectory⟩

/-! ### Steps -/

section Steps

variable {see : τ → σ}

theorem count_seen (change : Report → Report) :
    (Fallible.seen (PassState.seen see)).rel (count change) (count change) := fun _ ↦ rfl

theorem edit_seen (s : Site) (change : Document → Option Document) :
    (Fallible.seen (PassState.seen see)).rel (edit s change) (edit s change) := by
  intro st
  rw [edit, edit, Fallible.run_bind_of_ok (Fallible.run_get _),
    Fallible.run_bind_of_ok (Fallible.run_get _)]
  simp only [PassState.seen]
  cases change st.document <;> rfl

variable {p : Pass σ} {host : Host τ} (h : host.LooksLike see p.host)
include h

theorem artifact?_seen (input : String) (explicit? : Option String) :
    (Fallible.seen (PassState.seen see)).rel ((p.withHost host).artifact? input explicit?)
      (p.artifact? input explicit?) := by
  intro st
  have hrender : (st.rendering.seen see).render p.host p.settings input explicit?
      = (st.rendering.render (p.withHost host).host (p.withHost host).settings input
          explicit?).map id (.seen see) :=
    RenderState.render_seen h p.settings st.rendering input explicit?
  simp only [artifact?, ExceptT.run, ExceptT.mk, StateT.run, PassState.seen, hrender]
  rcases st.rendering.render (p.withHost host).host (p.withHost host).settings input explicit?
    with ⟨e | a, rendering⟩
  · cases hfailure : e.isRenderFailure <;> simp [hfailure, PassState.seen]
  · rfl

theorem visitMath_seen (s : Site) (m : MathBlock) :
    (Fallible.seen (PassState.seen see)).rel ((p.withHost host).visitMath s m)
      (p.visitMath s m) := by
  rw [visitMath, visitMath]
  have hfound : (p.withHost host).typesettable? m = p.typesettable? m := rfl
  rw [hfound]
  cases p.typesettable? m with
  | none => exact count_seen _
  | some found =>
    refine (Fallible.seen _).bind (artifact?_seen h _ _) fun a? ↦ ?_
    cases a? with
    | none => exact (Fallible.seen _).pure _
    | some a => exact (Fallible.seen _).bind (edit_seen s _) fun _ ↦ count_seen _

theorem replace_seen (attributes : Attributes) (o : Inline.Occurrence) :
    (Fallible.seen (PassState.seen see)).rel ((p.withHost host).replace attributes o)
      (p.replace attributes o) := by
  refine (Fallible.seen _).bind (artifact?_seen h _ _) fun a? ↦ ?_
  cases a? with
  | none => exact (Fallible.seen _).pure _
  | some a => exact (Fallible.seen _).bind (count_seen _) fun _ ↦ (Fallible.seen _).pure _

theorem visitText_seen (s : Site) (text : String) :
    (Fallible.seen (PassState.seen see)).rel ((p.withHost host).visitText s text)
      (p.visitText s text) := by
  rw [visitText, visitText, Inline.replaceEquations_eq_map, Inline.replaceEquations_eq_map]
  split
  · refine (Fallible.seen _).bind (count_seen _) fun _ ↦ ?_
    refine (Fallible.seen _).bind ((Fallible.seen _).map _ ((Fallible.seen _).mapM fun o _ ↦
      replace_seen h s.attributes o)) fun new ↦ ?_
    refine (Fallible.seen _).bind (count_seen _) fun _ ↦ ?_
    split
    · exact (Fallible.seen _).bind (edit_seen s _) fun _ ↦ count_seen _
    · exact (Fallible.seen _).pure _
  · exact (Fallible.seen _).pure _

theorem visit_seen (s : Site) :
    (Fallible.seen (PassState.seen see)).rel ((p.withHost host).visit s) (p.visit s) := by
  intro st
  -- the document is seen as it is, so that both find the same node
  unfold visit
  split
  · rw [Fallible.run_bind_of_ok (Fallible.run_get _), Fallible.run_bind_of_ok (Fallible.run_get _)]
    simp only [PassState.seen]
    split
    · exact visitMath_seen h s _ st
    · rfl
  · rfl
  · rw [Fallible.run_bind_of_ok (Fallible.run_get _), Fallible.run_bind_of_ok (Fallible.run_get _)]
    simp only [PassState.seen]
    split
    · exact visitText_seen h s _ st
    · rfl

end Steps

/-- **A pass does not look at its surroundings.** With a host that looks like its own, a pass has
the same outcome. -/
theorem run_seen {p : Pass σ} {see : τ → σ} {host : Host τ} (h : host.LooksLike see p.host)
    (d : Document) (world : τ) :
    p.run d (see world) = ((p.withHost host).run d world).seen see := by
  have hsteps : p.steps d (see world) = ((p.withHost host).steps d world).map id (.seen see) :=
    (Fallible.seen (PassState.seen see)).forM (fun s _ ↦ visit_seen h s) (.initial d world)
  rw [run, run, hsteps]
  rfl

end Pass

end DocumentMath
