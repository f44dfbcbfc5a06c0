import DocumentMath.Proofs.Document.Sites
import DocumentMath.Proofs.Pass.Work

/-!
# A visit does the work at its site

A pass looks up each site in the document and writes the change back there; the work of the pass
gets what stands at the place and returns what takes its place. `Does` relates the two: the pass
ends as the work does and with the same progress. If the work succeeds, its result is in the
document; if it fails, the document is as it was. A visit of a site that leads to a node of its kind
does the work at that node (`Pass.visit_does`), and a single node is exchanged.
-/

namespace DocumentMath

variable {σ α β : Type}

/-! ### The work at a node -/

/-- The work of a pass at a node, seen as a candidate of a kind: what becomes of the node. -/
def Pass.workAt (p : Pass σ) (attributes : Attributes) : CandidateKind → Node → WorkM σ Node
  | .mathBlock, .block (.math m) => Node.block <$> Work.math p m
  | .nestedDocument, n => (fun _ ↦ n) <$> p.visitor.nested
  | kind, n =>
    match kind.textOf? n with
    | some text =>
      (fun new? ↦ (new?.bind (kind.setText? · n)).getD n) <$> Work.text p attributes text
    | none => pure n

theorem Pass.workAt_text {p : Pass σ} {attributes : Attributes} {kind : CandidateKind} {n : Node}
    {text : String} (hkind : kind.isText = true) (htext : kind.textOf? n = some text) :
    p.workAt attributes kind n
      = (fun new? ↦ (new?.bind (kind.setText? · n)).getD n) <$> Work.text p attributes text := by
  cases kind
  case mathBlock => cases hkind
  case nestedDocument => cases hkind
  all_goals simp only [workAt, htext]

/-- A candidate is a math block, a cell for a document, or a text. -/
theorem Node.candidate_cases {kind : CandidateKind} {n : Node}
    (h : n.candidateKind? = some kind) :
    (∃ m, kind = .mathBlock ∧ n = .block (.math m)) ∨ kind = .nestedDocument ∨
      kind.isText = true ∧ ∃ text, kind.textOf? n = some text := by
  by_cases htext : kind.isText = true
  · exact Or.inr (Or.inr ⟨htext, n.exists_textOf? h htext⟩)
  · cases kind
    case mathBlock =>
      obtain ⟨m, rfl⟩ := Node.exists_math_of_candidateKind? h
      exact Or.inl ⟨m, rfl, rfl⟩
    case nestedDocument => exact Or.inr (Or.inl rfl)
    all_goals exact absurd rfl htext

/-! ### Doing the work -/

/-- Begun with the document `D`, the pass comes to the same progress as the work, with an error
exactly where the work has it. Where the work returns `b`, the pass leaves a document that `R`
allows for it, and where the work fails, it leaves `D`. -/
def Does (x : PassM σ Unit) (D : Document) (w : WorkM σ β) (R : β → Document → Prop) : Prop :=
  ∀ g, ∃ d, x.run.run ⟨D, g.report, g.rendering⟩
      = ((w.run.run g).1.map fun _ ↦ (), ⟨d, (w.run.run g).2.report, (w.run.run g).2.rendering⟩) ∧
    (∀ b, (w.run.run g).1 = .ok b → R b d) ∧ ∀ e, (w.run.run g).1 = .error e → d = D

namespace Does

variable {x y : PassM σ Unit} {w : WorkM σ β} {D D' : Document} {R : β → Document → Prop} {b : β}

theorem pure (h : R b D) : Does (Pure.pure () : PassM σ Unit) D (Pure.pure b) R := fun _ ↦
  ⟨D, rfl, fun _ hb ↦ by cases hb; exact h, fun _ he ↦ nomatch he⟩

/-- Only what the pass does to the document it begins with matters. -/
theorem congr (h : Does y D w R)
    (hxy : ∀ report rendering,
      x.run.run ⟨D, report, rendering⟩ = y.run.run ⟨D, report, rendering⟩) :
    Does x D w R := by
  intro g
  rw [hxy]
  exact h g

/-- A step of the work is done by the pass itself. -/
theorem lift_bind {u : WorkM σ α} {f : α → PassM σ Unit} {k : α → WorkM σ β}
    (h : ∀ a, Does (f a) D (k a) R) : Does (Work.lift u >>= f) D (u >>= k) R := by
  intro g
  rcases hu : u.run.run g with ⟨e | a, g'⟩
  · rw [Fallible.run_bind_of_error hu, Fallible.run_bind_of_error (Work.lift_run hu)]
    exact ⟨D, rfl, fun _ hb ↦ (by cases hb), fun _ _ ↦ rfl⟩
  · rw [Fallible.run_bind_of_ok hu, Fallible.run_bind_of_ok (Work.lift_run hu)]
    exact h a g'

theorem count (change : Report → Report) (h : R b D) :
    Does (σ := σ) (Pass.count change) D (Work.count change >>= fun _ ↦ Pure.pure b) R := by
  rw [Work.lift_count, ← bind_pure (Work.lift _)]
  exact lift_bind fun _ ↦ pure h

/-- A change of the document that is counted. -/
theorem edit_count {s : Site} {change : Document → Option Document} {counting : Report → Report}
    (hchange : change D = some D') (h : R b D') :
    Does (σ := σ) (Pass.edit s change >>= fun _ ↦ Pass.count counting) D
      (Work.count counting >>= fun _ ↦ Pure.pure b) R := by
  intro g
  have hedit : (Pass.edit (σ := σ) s change).run.run ⟨D, g.report, g.rendering⟩
      = (.ok (), ⟨D', g.report, g.rendering⟩) := by
    rw [Pass.edit, Fallible.run_bind_of_ok (Fallible.run_get _)]
    simp only [hchange]
    rfl
  rw [Fallible.run_bind_of_ok hedit]
  exact ⟨D', rfl, fun _ hb ↦ by cases hb; exact h, fun _ he ↦ nomatch he⟩

end Does

/-! ### Visits -/

namespace Pass

variable (p : Pass σ) {s : Site} {d : Document}

theorem visitMath_does {m : MathBlock} (h : s.nodeIn? d = some (.block (.math m))) :
    Does (p.visitMath s m) d (Node.block <$> Work.math p m) fun n' d' ↦
      s.Changed (.block (.math m)) n' d d' := by
  rw [visitMath, Work.math]
  cases p.typesettable? m with
  | none =>
    simp only [map_bind, map_pure]
    exact Does.count _ (Document.changed_self h)
  | some found =>
    obtain ⟨dialect, latex⟩ := found
    simp only [Work.lift_artifact?, map_bind]
    refine Does.lift_bind fun a? ↦ ?_
    cases a? with
    | none => exact Does.pure (Document.changed_self h)
    | some a =>
      simp only [map_bind, map_pure]
      have hsort : (Node.block (.math m)).SameSort
        (.block (m.replacement p.options.embed dialect latex a)) := trivial
      obtain ⟨d', hchanged⟩ := Document.exists_changed h hsort
      exact Does.edit_count (hchanged.updateIn?_eq rfl) hchanged

theorem visitText_does {n : Node} {text : String} (h : s.nodeIn? d = some n)
    (htext : s.candidate.kind.textOf? n = some text) :
    Does (p.visitText s text) d
      ((fun new? ↦ (new?.bind (s.candidate.kind.setText? · n)).getD n)
        <$> Work.text p s.attributes text) fun n' d' ↦ s.Changed n n' d d' := by
  rw [visitText, Work.text]
  have hreplace : p.replace s.attributes = fun o ↦ Work.lift (Work.replace p s.attributes o) :=
    funext fun o ↦ Work.lift_replace p s.attributes o
  split
  · simp only [Work.lift_count, hreplace, Work.lift_replaceEquations, map_bind]
    refine Does.lift_bind fun _ ↦ Does.lift_bind fun new ↦ Does.lift_bind fun _ ↦ ?_
    split
    · obtain ⟨n', hn'⟩ := Node.exists_setText? htext new.text
      obtain ⟨d', hchanged⟩ := Document.exists_changed h (Node.replaces_of_setText? hn').sort
      simp only [map_bind, map_pure, Option.bind_some, hn', Option.getD_some]
      rw [← Work.lift_count]
      exact Does.edit_count (hchanged.updateIn?_eq hn') hchanged
    · simp only [map_pure]
      exact Does.pure (Document.changed_self h)
  · simp only [map_pure]
    exact Does.pure (Document.changed_self h)

/-- A visit of a text looks it up first. -/
theorem run_visit_text {n : Node} {text : String} (hkind : s.candidate.kind.isText = true)
    (h : s.nodeIn? d = some n) (htext : s.candidate.kind.textOf? n = some text) (report : Report)
    (rendering : RenderState σ) :
    (p.visit s).run.run ⟨d, report, rendering⟩
      = (p.visitText s text).run.run ⟨d, report, rendering⟩ := by
  have htextIn : s.textIn? d = some text := by
    rw [Site.textIn?_eq, h, Option.bind_some, htext]
  unfold visit
  split
  · next hmath => simp [hmath, CandidateKind.isText] at hkind
  · next hnested => simp [hnested, CandidateKind.isText] at hkind
  · rw [Fallible.run_bind_of_ok (Fallible.run_get _)]
    simp only [htextIn]

/-- A visit of a math block looks it up first. -/
theorem run_visit_math {m : MathBlock} (hkind : s.candidate.kind = .mathBlock)
    (h : s.nodeIn? d = some (.block (.math m))) (report : Report) (rendering : RenderState σ) :
    (p.visit s).run.run ⟨d, report, rendering⟩
      = (p.visitMath s m).run.run ⟨d, report, rendering⟩ := by
  have hblockIn : s.blockIn? d = some (.math m) := by
    rw [Site.blockIn?_eq, h]
    rfl
  rw [visit]
  simp only [hkind]
  rw [Fallible.run_bind_of_ok (Fallible.run_get _)]
  simp only [hblockIn]

/-- A visit of a site that leads to a node of its kind does the work at that node. -/
theorem visit_does {n : Node} (h : s.nodeIn? d = some n)
    (hkind : n.candidateKind? = some s.candidate.kind) :
    Does (p.visit s) d (p.workAt s.attributes s.candidate.kind n) fun n' d' ↦
      s.Changed n n' d d' := by
  rcases n.candidate_cases hkind with ⟨m, hmath, rfl⟩ | hnested | ⟨htext, text, htextOf⟩
  · rw [hmath]
    exact Does.congr (p.visitMath_does h) (p.run_visit_math hmath h)
  · have hvisit : p.visit s = Work.lift p.visitor.nested := by
      rw [visit]
      simp only [hnested]
      rfl
    rw [hvisit, hnested, workAt, ← bind_pure (Work.lift _), ← bind_pure_comp]
    exact Does.lift_bind fun _ ↦ Does.pure (Document.changed_self h)
  · rw [workAt_text htext htextOf]
    exact Does.congr (p.visitText_does h htextOf) (p.run_visit_text htext h htextOf)

end Pass

end DocumentMath
