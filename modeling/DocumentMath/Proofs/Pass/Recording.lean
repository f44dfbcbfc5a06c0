import DocumentMath.Proofs.Pass.Alone
import DocumentMath.Proofs.Pass.Host

/-!
# The calls of a pass

A pass with a recording host does what the pass does with the host itself: it has the same result,
leaves the same document and the same surroundings, also when it fails (`Pass.run_recording`). So
what is written down are the calls of the pass (`Pass.calls`), and what is asked of the engine
among them are its requests (`Pass.requests`).

`Pass.rendering_induction` is for what can be said of all passes, those that fail included: what
holds of a fresh renderer, and is kept when an equation of the document is rendered, holds in the
end.
-/

namespace DocumentMath

variable {σ : Type}

namespace Pass

/-! ### What is written down -/

/-- The pass that writes down what it calls its host for. -/
def recording (p : Pass σ) : Pass (σ × List HostCall) :=
  p.withHost p.host.recording

/-- Writing down makes no difference to a pass. -/
theorem run_recording (p : Pass σ) (d : Document) (world : σ) (before : List HostCall) :
    p.run d world = (p.recording.run d (world, before)).seen Prod.fst :=
  run_seen p.host.recording_looksLike d (world, before)

/-- The calls that a pass over a document makes, in order. -/
def calls (p : Pass σ) (d : Document) (world : σ) : List HostCall :=
  (p.recording.run d (world, [])).world.2

/-- What a pass over a document asks of its engine, in order. -/
def requests (p : Pass σ) (d : Document) (world : σ) : List Request :=
  (p.calls d world).filterMap HostCall.request?

/-! ### What is kept -/

/-- Whatever a step of the work does, it keeps a property of the renderer and its surroundings. -/
def keeping (P : RenderState σ → Prop) : EffectRelation (WorkM σ) (WorkM σ) where
  rel x _ := ∀ g, P g.rendering → P (x.run.run g).2.rendering
  pure _ _ hg := hg
  bind := by
    intro α β x y f k hx hf g hg
    have hx' := hx g hg
    -- an action that fails leaves a state as well
    rcases hrun : x.run.run g with ⟨e | a, g'⟩ <;> rw [hrun] at hx'
    · rw [Fallible.run_bind_of_error hrun]
      exact hx'
    · rw [Fallible.run_bind_of_ok hrun]
      exact hf a g' hx'

section Keeping

variable {p : Pass σ} {P : RenderState σ → Prop}

theorem keeping_count (change : Report → Report) :
    (keeping P).rel (Work.count change) (Work.count change) := fun _ hg ↦ hg

theorem keeping_artifact? {e : NamedInput}
    (h : ∀ st, P st → P (st.render p.host p.settings e.input e.explicit?).2) :
    (keeping P).rel (Work.artifact? p e.input e.explicit?)
      (Work.artifact? p e.input e.explicit?) := by
  intro g hg
  have hst := h g.rendering hg
  rcases Work.artifact?_cases p e.input e.explicit? g with
    ⟨a, st, hrender, hrun⟩ | ⟨error, st, hrender, -, hrun⟩ | ⟨error, st, hrender, -, hrun⟩ <;>
    rw [hrender] at hst <;> rw [hrun] <;> exact hst

theorem keeping_math {m : MathBlock} (h : ∀ e ∈ p.inputsAt (.math m), ∀ st, P st →
    P (st.render p.host p.settings e.input e.explicit?).2) :
    (keeping P).rel (Work.math p m) (Work.math p m) := by
  rw [Work.math]
  rw [inputsAt] at h
  cases hfound : p.typesettable? m with
  | none => exact (keeping P).bind (keeping_count _) fun _ ↦ (keeping P).pure _
  | some found =>
    rw [hfound] at h
    refine (keeping P).bind (keeping_artifact? (e := ⟨m.id, _⟩) (h _ List.mem_cons_self))
      fun a? ↦ ?_
    cases a? with
    | none => exact (keeping P).pure _
    | some a => exact (keeping P).bind (keeping_count _) fun _ ↦ (keeping P).pure _

theorem keeping_replace {attributes : Attributes} {o : Inline.Occurrence}
    (h : ∀ st, P st → P (st.render p.host p.settings (p.equationOf attributes o).input none).2) :
    (keeping P).rel (Work.replace p attributes o) (Work.replace p attributes o) := by
  rw [Work.replace]
  refine (keeping P).bind (keeping_artifact? (e := p.inlineInput attributes o) h) fun a? ↦ ?_
  cases a? with
  | none => exact (keeping P).pure _
  | some a => exact (keeping P).bind (keeping_count _) fun _ ↦ (keeping P).pure _

theorem keeping_text {attributes : Attributes} {text : String}
    (h : ∀ e ∈ p.inputsAt (.text attributes text), ∀ st, P st →
      P (st.render p.host p.settings e.input e.explicit?).2) :
    (keeping P).rel (Work.text p attributes text) (Work.text p attributes text) := by
  rw [Work.text, Inline.replaceEquations_eq_map]
  split
  · refine (keeping P).bind (keeping_count _) fun _ ↦ ?_
    refine (keeping P).bind ((keeping P).map _ ((keeping P).mapM fun o ho ↦
      keeping_replace (h _ (List.mem_map_of_mem ho)))) fun new ↦ ?_
    refine (keeping P).bind (keeping_count _) fun _ ↦ ?_
    split
    · exact (keeping P).bind (keeping_count _) fun _ ↦ (keeping P).pure _
    · exact (keeping P).pure _
  · exact (keeping P).pure _

end Keeping

/-- What holds of a fresh renderer, and is kept whenever an equation of the document is rendered,
holds when the pass has ended, in whatever way. -/
theorem rendering_induction (p : Pass σ) (d : Document) (world : σ) {P : RenderState σ → Prop}
    (hinitial : P ⟨.initial, world⟩)
    (hrender : ∀ e ∈ p.inputs d, ∀ st, P st →
      P (st.render p.host p.settings e.input e.explicit?).2) :
    P (p.traversal d world).2.rendering := by
  refine d.traverse_related (keeping P) (v := p.visitor) (w := p.visitor) (fun x hx ↦ ?_)
    (.initial world) hinitial
  have hinputs : ∀ e ∈ p.inputsAt x, ∀ st, P st →
      P (st.render p.host p.settings e.input e.explicit?).2 :=
    fun e he ↦ hrender e (List.mem_flatMap_of_mem hx he)
  cases x with
  | math m => exact keeping_math hinputs
  | text attributes text => exact keeping_text hinputs
  | nested => exact keeping_count fun r ↦ { r with nestedDocuments := r.nestedDocuments + 1 }

end Pass

end DocumentMath
