import DocumentMath.Proofs.Document.Texts
import DocumentMath.Proofs.Pass.Reach

/-!
# What a pass leaves at a site

At a site that a pass has visited stands what the work at its node has made of it, and at any other
site stands what stood there before (`Pass.left`). That is so at the end of the pass, whether or not
it fails: no later visit changes the text of an earlier site, and nothing stands below a math block
or what takes its place.

So what can be said of the work of a pass is said of the document it leaves: of its math blocks by
`Pass.left_math`, and of its texts by `Pass.left_text`.
-/

namespace DocumentMath

variable {σ : Type}

namespace Pass

/-- At some point of the pass, the visit of a site makes this of the node there. -/
def Makes (p : Pass σ) (d : Document) (world : σ) (s : Site) (n n' : Node) : Prop :=
  ∃ done later st g, p.Reaches d world done (s :: later) st ∧
    (p.workAt s.attributes s.candidate.kind n).run.run ⟨st.report, st.rendering⟩ = (.ok n', g)

/-- What can be seen at a site, apart from what stands below it, is as if it led to this node. -/
structure Shows (d : Document) (s : Site) (n : Node) : Prop where
  text : s.textIn? d = s.candidate.kind.textOf? n
  leaf : (s.nodeIn? d).bind Node.leaf? = n.leaf?

variable {p : Pass σ} {d : Document} {world : σ}

theorem shows_of_nodeIn? {s : Site} {n : Node} (h : s.nodeIn? d = some n) : Shows d s n :=
  ⟨by rw [Site.textIn?_eq, h, Option.bind_some], by rw [h, Option.bind_some]⟩

namespace Reaches

variable {done later : List Site} {st st' : PassState σ} {s t : Site}

/-- A visit leaves alone what is seen at the sites before. -/
theorem bind_nodeIn?_of_visit {β : Type} {f : Node → Option β} (hf : Node.IsOwn f)
    (h : p.Reaches d world done (s :: later) st) (hvisit : (p.visit s).run.run st = (.ok (), st'))
    (ht : t ∈ done) : (t.nodeIn? st'.document).bind f = (t.nodeIn? st.document).bind f := by
  obtain ⟨n, -, hn, hkind⟩ := h.exists_node List.mem_cons_self
  rcases changed_of_visit hn hkind hvisit with ⟨-, n', hreplaces, -, hchanged⟩ | ⟨e, he, -⟩
  · exact Document.Changed.bind_nodeIn?_eq hf hchanged hreplaces (h.before_next ht).ne.symm
  · cases he

theorem shows_of_visit (h : p.Reaches d world done (s :: later) st)
    (hvisit : (p.visit s).run.run st = (.ok (), st')) (ht : t ∈ done) {n : Node}
    (hshows : Shows st.document t n) : Shows st'.document t n where
  text := by
    rw [Site.textIn?_eq, h.bind_nodeIn?_of_visit t.candidate.kind.isOwn_textOf? hvisit ht,
      ← Site.textIn?_eq]
    exact hshows.text
  leaf := (h.bind_nodeIn?_of_visit Node.isOwn_leaf? hvisit ht).trans hshows.leaf

/-- At each site that has been visited stands what its visit has made of the node. -/
theorem exists_made (h : p.Reaches d world done later st) :
    ∀ t ∈ done, ∃ n n', t.nodeIn? d = some n ∧ n.candidateKind? = some t.candidate.kind ∧
      p.Makes d world t n n' ∧ Shows st.document t n' := by
  induction h with
  | start => exact List.forall_mem_nil _
  | @visit done later s st st' h hvisit ih =>
    rw [List.forall_mem_append, List.forall_mem_singleton]
    constructor
    · intro t ht
      obtain ⟨n, n', hn, hkind, hmakes, hshows⟩ := ih t ht
      exact ⟨n, n', hn, hkind, hmakes, h.shows_of_visit hvisit ht hshows⟩
    · obtain ⟨n, hnd, hn, hkind⟩ := h.exists_node List.mem_cons_self
      rcases work_of_visit hn hkind hvisit with ⟨-, n', hwork, hchanged⟩ | ⟨e, he, -⟩
      · exact ⟨n, n', hnd, hkind, ⟨done, later, st, _, h, hwork⟩,
          shows_of_nodeIn? (Document.Changed.after hchanged)⟩
      · cases he

end Reaches

/-! ### The document in the end -/

/-- The document that a pass leaves is that of a state it has reached. -/
theorem exists_reaches (p : Pass σ) (d : Document) (world : σ) :
    ∃ done later st, p.Reaches d world done later st ∧ (p.run d world).document = st.document := by
  cases hresult : (p.run d world).result with
  | error e =>
    obtain ⟨done, s, later, st, st', hreaches, -, hdocument, -⟩ := reaches_of_error hresult
    exact ⟨done, s :: later, st, hreaches, hdocument⟩
  | ok report =>
    rw [run] at hresult ⊢
    rcases p.steps_cases d world with
      ⟨st, hsteps, hreaches⟩ | ⟨done, s, later, st, e, st', hsteps, -⟩ <;>
      rw [hsteps] at hresult ⊢
    · exact ⟨d.sites, [], st, hreaches, rfl⟩
    · cases hresult

/-- **What stands at a site after a pass** is what stood there, or what the visit of the site has
made of it. -/
theorem left (p : Pass σ) (world : σ) {s : Site} (hs : s ∈ d.sites) :
    ∃ n n', s.nodeIn? d = some n ∧ n.candidateKind? = some s.candidate.kind ∧
      (n' = n ∨ p.Makes d world s n n') ∧ Shows (p.run d world).document s n' := by
  obtain ⟨done, later, st, hreaches, hdocument⟩ := p.exists_reaches d world
  rw [hdocument]
  rw [hreaches.sites_eq, List.mem_append] at hs
  rcases hs with hdone | hlater
  · obtain ⟨n, n', hn, hkind, hmakes, hshows⟩ := hreaches.exists_made s hdone
    exact ⟨n, n', hn, hkind, .inr hmakes, hshows⟩
  · obtain ⟨n, hnd, hn, hkind⟩ := hreaches.exists_node hlater
    exact ⟨n, n, hnd, hkind, .inl rfl, shows_of_nodeIn? hn⟩

/-- A math block is left as it is, or as the work of the pass has made it. -/
theorem left_math (p : Pass σ) (world : σ) {s : Site} (hs : s ∈ d.sites) {m : MathBlock}
    (hm : s.blockIn? d = some (.math m)) :
    ∃ b, s.blockIn? (p.run d world).document = some b ∧
      (b = .math m ∨ ∃ done later st g, p.Reaches d world done (s :: later) st ∧
        (Work.math p m).run.run ⟨st.report, st.rendering⟩ = (.ok b, g)) := by
  obtain ⟨n, n', hn, hkind, hleft, hshows⟩ := p.left world hs
  rw [Site.blockIn?_eq, hn, Option.bind_some] at hm
  obtain rfl : n = .block (.math m) := by
    cases n <;> cases hm
    rfl
  have hmath : s.candidate.kind = .mathBlock := (Option.some.inj hkind).symm
  have hblock : ∀ b, n'.leaf? = some b → s.blockIn? (p.run d world).document = some b := by
    intro b hb
    obtain ⟨node, hnode, hleaf⟩ := Option.bind_eq_some_iff.mp (hshows.leaf.trans hb)
    rw [Site.blockIn?_eq, hnode, Option.bind_some, Node.block?_of_leaf? hleaf]
  rcases hleft with rfl | ⟨done, later, st, g, hreaches, hwork⟩
  · exact ⟨.math m, hblock _ rfl, .inl rfl⟩
  · rw [hmath] at hwork
    obtain ⟨b, hb, rfl⟩ := Fallible.run_map_eq_ok hwork
    refine ⟨b, hblock b ?_, .inr ⟨done, later, st, g, hreaches, hb⟩⟩
    rcases Work.math_ok p hb with rfl | ⟨dialect, latex, a, rfl⟩
    · rfl
    · rw [MathBlock.replacement]
      split <;> rfl

/-- A text is left as it is, or as the work of the pass has made it. -/
theorem left_text (p : Pass σ) (world : σ) {s : Site} (hs : s ∈ d.sites) {text : String}
    (htext : s.textIn? d = some text) :
    ∃ new?, s.textIn? (p.run d world).document = some (new?.getD text) ∧
      (new? = none ∨ ∃ done later st g, p.Reaches d world done (s :: later) st ∧
        (Work.text p s.attributes text).run.run ⟨st.report, st.rendering⟩ = (.ok new?, g)) := by
  obtain ⟨n, n', hn, hkind, hleft, hshows⟩ := p.left world hs
  rw [Site.textIn?_eq, hn, Option.bind_some] at htext
  rw [hshows.text]
  rcases hleft with rfl | ⟨done, later, st, g, hreaches, hwork⟩
  · exact ⟨none, htext, .inl rfl⟩
  · have hisText : s.candidate.kind.isText = true := by
      by_contra hno
      rw [CandidateKind.textOf?_of_not_isText (Bool.eq_false_iff.mpr hno)] at htext
      cases htext
    rw [workAt_text hisText htext] at hwork
    obtain ⟨new?, hnew, rfl⟩ := Fallible.run_map_eq_ok hwork
    refine ⟨new?, ?_, .inr ⟨done, later, st, g, hreaches, hnew⟩⟩
    cases new? with
    | none => exact htext
    | some new =>
      obtain ⟨n', hn'⟩ := Node.exists_setText? htext new
      rw [Option.bind_some, hn', Option.getD_some]
      exact CandidateKind.textOf?_setText? hn'

end Pass

end DocumentMath
