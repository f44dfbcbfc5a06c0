import DocumentMath.Proofs.Document.Hole
import DocumentMath.Proofs.Pass.Visit

/-!
# Several visits simulate the work

`Simulates` relates steps of a pass to steps of the work: where the work ends, the pass ends in the
same way and with the same progress, and what the work returns has been put into the document. It
holds of steps that are taken one after the other. If a site leads to a hole of the document, a
visit simulates the work (`simulates_math`, `simulates_text`, `simulates_nested`).
-/

namespace DocumentMath

variable {σ α β γ : Type}

/-- Begun with the document `D`, the pass comes to the same progress as the work, with an error
exactly where the work has it. Where the work returns `b`, the pass leaves the document `C b`. -/
def Simulates (x : PassM σ Unit) (D : Document) (w : WorkM σ β) (C : β → Document) : Prop :=
  ∀ g, ∃ d, x.run.run ⟨D, g.report, g.rendering⟩
      = ((w.run.run g).1.map fun _ ↦ (), ⟨d, (w.run.run g).2.report, (w.run.run g).2.rendering⟩) ∧
    ∀ b, (w.run.run g).1 = .ok b → d = C b

namespace Simulates

variable {x y : PassM σ Unit} {w : WorkM σ β} {v : β → WorkM σ γ} {D : Document}
  {C : β → Document} {E : γ → Document}

theorem pure (b : β) (C : β → Document) :
    Simulates (Pure.pure () : PassM σ Unit) (C b) (Pure.pure b) C := fun g ↦
  ⟨C b, rfl, fun _ h ↦ by cases h; rfl⟩

/-- Two steps simulate two steps of the work if the second goes on with what the first has made. -/
theorem bind (hx : Simulates x D w C) (hy : ∀ b, Simulates y (C b) (v b) E) :
    Simulates (x >>= fun _ ↦ y) D (w >>= v) E := by
  intro g
  obtain ⟨d, hrun, hd⟩ := hx g
  rcases hw : w.run.run g with ⟨e | b, g'⟩
  · rw [hw] at hrun
    rw [Fallible.run_bind_of_error hw, Fallible.run_bind_of_error hrun]
    exact ⟨d, rfl, fun _ h ↦ by cases h⟩
  · rw [hw] at hrun hd
    rw [Fallible.run_bind_of_ok hw, Fallible.run_bind_of_ok hrun, hd b rfl]
    exact hy b g'

/-- What is made of a result in the end makes no difference to the pass. -/
theorem map {f : β → γ} (hx : Simulates x D w fun b ↦ E (f b)) :
    Simulates x D (w >>= fun b ↦ Pure.pure (f b)) E := by
  intro g
  obtain ⟨d, hrun, hd⟩ := hx g
  rcases hw : w.run.run g with ⟨e | b, g'⟩ <;> rw [hw] at hrun hd
  · rw [Fallible.run_bind_of_error hw]
    exact ⟨d, hrun, fun _ h ↦ by cases h⟩
  · rw [Fallible.run_bind_of_ok hw]
    exact ⟨d, hrun, fun _ h ↦ by cases h; exact hd b rfl⟩

end Simulates

/-- To do the work is to simulate it, where it is known which document its result makes. -/
theorem Does.simulates {x : PassM σ Unit} {D : Document} {w : WorkM σ β} {f : β → γ}
    {R : γ → Document → Prop} {C : β → Document} (h : Does x D (f <$> w) R)
    (hR : ∀ b d, R (f b) d → d = C b) : Simulates x D w C := by
  intro g
  obtain ⟨d, hrun, hok, -⟩ := h g
  rcases hw : w.run.run g with ⟨e | b, g'⟩
  · rw [Fallible.run_map_of_error f hw] at hrun
    exact ⟨d, hrun, fun _ hb ↦ by cases hb⟩
  · rw [Fallible.run_map_of_ok f hw] at hrun hok
    exact ⟨d, hrun, fun _ hb ↦ by cases hb; exact hR _ _ (hok _ rfl)⟩

/-! ### Visits -/

section Visits

variable {within : List NodePath} {path : NodePath} {attributes : Attributes} {node : α → Node}
  {C : α → Document} (p : Pass σ)

/-- To exchange the node in a hole is to put another one in. -/
theorem Hole.eq_of_changed (h : Hole within path node C) {x y : α} {d : Document}
    (hchanged : Document.Changed within path (node x) (node y) (C x) d) : d = C y := by
  have hupdate : (C x).updateIn? (fun _ ↦ some (node y)) within path = some d :=
    hchanged.updateIn?_eq rfl
  exact Option.some.inj (hupdate.symm.trans (h.set rfl))

/-- A visit of a math block. -/
theorem simulates_math {C : Block → Document} (h : Hole within path Node.block C) (m : MathBlock) :
    Simulates (p.visit ⟨within, ⟨path, .mathBlock⟩, attributes⟩) (C (.math m)) (Work.math p m)
      C := by
  have hnode : Site.nodeIn? ⟨within, ⟨path, .mathBlock⟩, attributes⟩ (C (.math m))
      = some (.block (.math m)) := h.get (.math m)
  exact (p.visit_does hnode rfl).simulates fun _ _ hd ↦ h.eq_of_changed hd

/-- A visit of a text. What is in the hole is told by the new text, if there is one. -/
theorem simulates_text (h : Hole within path node C) {kind : CandidateKind}
    (hkind : kind.isText = true) (edited : Option String → α) {text : String}
    (hget : kind.textOf? (node (edited none)) = some text)
    (hset : ∀ new, kind.setText? new (node (edited none)) = some (node (edited (some new)))) :
    Simulates (p.visit ⟨within, ⟨path, kind⟩, attributes⟩) (C (edited none))
      (Work.text p attributes text) fun new? ↦ C (edited new?) := by
  have hnode : Site.nodeIn? ⟨within, ⟨path, kind⟩, attributes⟩ (C (edited none))
      = some (node (edited none)) := h.get (edited none)
  have hdoes := Does.congr (p.visitText_does hnode hget) (p.run_visit_text hkind hnode hget)
  refine hdoes.simulates fun new? d hd ↦ h.eq_of_changed (x := edited none) ?_
  cases new? with
  | none => exact hd
  | some new =>
    rw [Option.bind_some, hset, Option.getD_some] at hd
    exact hd

/-- A visit of the cell of a document. -/
theorem simulates_nested (D : Document) :
    Simulates (p.visit ⟨within, ⟨path, .nestedDocument⟩, attributes⟩) D p.visitor.nested
      fun _ ↦ D := by
  have hvisit : p.visit ⟨within, ⟨path, .nestedDocument⟩, attributes⟩
      = Work.lift p.visitor.nested := rfl
  have hdoes : Does (Work.lift p.visitor.nested) D (id <$> p.visitor.nested) fun _ d ↦ d = D := by
    rw [← bind_pure (Work.lift _), ← bind_pure_comp]
    exact Does.lift_bind fun _ ↦ Does.pure rfl
  rw [hvisit]
  exact hdoes.simulates fun _ _ hd ↦ hd

end Visits

end DocumentMath
