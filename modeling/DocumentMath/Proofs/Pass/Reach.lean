import DocumentMath.Proofs.Document.Edited
import DocumentMath.Proofs.Pass.Traversal
import DocumentMath.Proofs.Render.Rendering
import DocumentMath.Render.Prepared

/-!
# What a pass does to a document

A pass visits the sites of a document one after the other (`Pass.Reaches`), and each visit exchanges
the node at its site for an edited one (`Pass.changed_of_visit`). Since no site stands below a later
one, the later sites are not touched: that is the invariant of the steps, `Pass.Reaches.later_eq`.
From it follow the three main statements. `Pass.sites_resolve`: sites stay valid, so that only the
surroundings make a pass fail. `Pass.run_editedTo`: whether or not a pass fails, the document is
edited only as is meant. `Pass.exists_reached_of_error`: a pass that fails has dealt with the sites
before some site and with nothing else.
-/

namespace DocumentMath

variable {σ : Type}

/-! ### Edited nodes -/

namespace Node

/-- A candidate with another text is an edited node. -/
theorem editedTo_of_setText? {kind : CandidateKind} {text : String} {n n' : Node}
    (hkind : n.candidateKind? = some kind) (h : kind.setText? text n = some n') :
    n.EditedTo n' := by
  unfold CandidateKind.setText? at h
  split at h <;> cases h
  case h_1 p =>
    have hmacros : p.expandsMacros = true := by
      by_contra hmacros
      simp [candidateKind?, hmacros] at hkind
    exact ⟨_, rfl, fun hp ↦ absurd (hp.symm.trans hmacros) Bool.false_ne_true⟩
  case h_2 i => exact ⟨_, _, rfl⟩
  case h_3 c =>
    have hstyle : c.style ≠ .literal ∧ c.style ≠ .asciiDoc := by
      obtain ⟨style, text, inner, rowspan, colspan⟩ := c
      constructor <;> rintro rfl <;> cases inner <;>
        simp [candidateKind?, TableCell.candidateKind?] at hkind
    exact ⟨_, _, rfl, fun hc ↦ (hc.elim hstyle.1 hstyle.2).elim, fun _ ↦ rfl, rfl⟩
  case h_4 s => exact ⟨_, _, _, rfl, Or.inr rfl⟩

end Node

namespace MathBlock

variable (m : MathBlock) (embed : Bool) (dialect : Dialect) (latex : String) (a : Artifact)

/-- There is nothing below a math block, and nothing below what takes its place. -/
theorem replacement_replaces :
    (Node.block (m.replacement embed dialect latex a)).Replaces (.block (.math m)) := by
  rw [replacement]
  split <;> exact ⟨trivial, fun x ↦ by rcases x with (_ | _ | _) | _ <;> rfl, rfl⟩

/-- What takes the place of a math block has its identifier and its title. -/
theorem editedTo_replacement :
    (Node.block (.math m)).EditedTo (.block (m.replacement embed dialect latex a)) := by
  rw [replacement]
  split
  · exact Or.inr (Or.inr ⟨_, rfl, rfl, rfl⟩)
  · exact Or.inr (Or.inl ⟨_, rfl, rfl, rfl⟩)

end MathBlock

/-! ### The work at a node -/

namespace Work

variable (p : Pass σ)

/-- A math block stays as it is or is replaced. -/
theorem math_ok {m : MathBlock} {b : Block} {g g' : Progress σ}
    (h : (math p m).run.run g = (.ok b, g')) :
    b = .math m ∨ ∃ dialect latex a, b = m.replacement p.options.embed dialect latex a := by
  rw [math] at h
  cases hfound : p.typesettable? m with
  | none =>
    rw [hfound] at h
    cases h
    exact Or.inl rfl
  | some found =>
    obtain ⟨dialect, latex⟩ := found
    rw [hfound] at h
    obtain ⟨a?, g₁, -, h⟩ := Fallible.run_bind_eq_ok h
    cases a? with
    | none =>
      cases h
      exact Or.inl rfl
    | some a =>
      cases h
      exact Or.inr ⟨dialect, latex, a, rfl⟩

theorem count_failsOnly (change : Report → Report) :
    Fallible.FailsOnly p.host.Raises (count (σ := σ) change) := by
  intro g e g' h
  cases h

theorem artifact?_failsOnly (input : String) (explicit? : Option String) :
    Fallible.FailsOnly p.host.Raises (artifact? p input explicit?) := by
  intro g e g' h
  rcases artifact?_cases p input explicit? g with
    ⟨a, st, -, hrun⟩ | ⟨e', st, -, -, hrun⟩ | ⟨e', st, hrender, hfailure, hrun⟩
  · cases hrun.symm.trans h
  · cases hrun.symm.trans h
  · cases hrun.symm.trans h
    exact RenderState.raises_of_render_error hrender hfailure

theorem math_failsOnly (m : MathBlock) : Fallible.FailsOnly p.host.Raises (math p m) := by
  rw [math]
  cases p.typesettable? m with
  | none => exact (count_failsOnly p _).bind fun _ ↦ .pure _
  | some found =>
    refine (artifact?_failsOnly p _ _).bind fun a? ↦ ?_
    cases a? with
    | none => exact .pure _
    | some a => exact (count_failsOnly p _).bind fun _ ↦ .pure _

theorem replace_failsOnly (attributes : Attributes) (o : Inline.Occurrence) :
    Fallible.FailsOnly p.host.Raises (replace p attributes o) := by
  rw [replace]
  refine (artifact?_failsOnly p _ _).bind fun a? ↦ ?_
  cases a? with
  | none => exact .pure _
  | some a => exact (count_failsOnly p _).bind fun _ ↦ .pure _

theorem text_failsOnly (attributes : Attributes) (t : String) :
    Fallible.FailsOnly p.host.Raises (text p attributes t) := by
  rw [text]
  split
  · refine (count_failsOnly p _).bind fun _ ↦ ?_
    rw [Inline.replaceEquations_eq_map]
    have hreplace : Fallible.FailsOnly p.host.Raises
        ((Inline.asked p.options.dialect t).mapM (replace p attributes)) :=
      .mapM fun o _ ↦ replace_failsOnly p attributes o
    refine (hreplace.map _).bind fun new ↦ (count_failsOnly p _).bind fun _ ↦ ?_
    split
    · exact (count_failsOnly p _).bind fun _ ↦ .pure _
    · exact .pure _
  · exact .pure _

end Work

namespace Pass

section Work

variable (p : Pass σ) {attributes : Attributes} {kind : CandidateKind} {n n' : Node}
  {g g' : Progress σ}

/-- The work at a node makes an edited node of it. -/
theorem workAt_ok (hkind : n.candidateKind? = some kind)
    (h : (p.workAt attributes kind n).run.run g = (.ok n', g')) :
    n'.Replaces n ∧ n.EditedTo n' := by
  rcases n.candidate_cases hkind with ⟨m, rfl, rfl⟩ | rfl | ⟨htext, text, htextOf⟩
  · obtain ⟨b, hb, rfl⟩ := Fallible.run_map_eq_ok h
    rcases Work.math_ok p hb with rfl | ⟨dialect, latex, a, rfl⟩
    · exact ⟨.refl _, .refl _⟩
    · exact ⟨m.replacement_replaces p.options.embed dialect latex a,
        m.editedTo_replacement p.options.embed dialect latex a⟩
  · obtain ⟨u, -, rfl⟩ := Fallible.run_map_eq_ok h
    exact ⟨.refl n, .refl n⟩
  · rw [workAt_text htext htextOf] at h
    obtain ⟨new?, -, rfl⟩ := Fallible.run_map_eq_ok h
    cases new? with
    | none => exact ⟨.refl n, .refl n⟩
    | some new =>
      obtain ⟨n', hn'⟩ := Node.exists_setText? htextOf new
      rw [Option.bind_some, hn', Option.getD_some]
      exact ⟨Node.replaces_of_setText? hn', Node.editedTo_of_setText? hkind hn'⟩

theorem workAt_failsOnly (attributes : Attributes) (hkind : n.candidateKind? = some kind) :
    Fallible.FailsOnly p.host.Raises (p.workAt attributes kind n) := by
  rcases n.candidate_cases hkind with ⟨m, rfl, rfl⟩ | rfl | ⟨htext, text, htextOf⟩
  · exact (Work.math_failsOnly p m).map _
  · have hnested : Fallible.FailsOnly p.host.Raises p.visitor.nested :=
      Work.count_failsOnly p fun r ↦ { r with nestedDocuments := r.nestedDocuments + 1 }
    exact hnested.map _
  · rw [workAt_text htext htextOf]
    exact (Work.text_failsOnly p attributes text).map _

end Work

/-! ### The steps of a pass -/

/-- A pass over a document has visited some sites and has come to a state; others are still to be
visited. -/
inductive Reaches (p : Pass σ) (d : Document) (world : σ) :
    List Site → List Site → PassState σ → Prop
  | start : Reaches p d world [] d.sites (.initial d world)
  | visit {done later : List Site} {s : Site} {st st' : PassState σ}
    (h : Reaches p d world done (s :: later) st) (hvisit : (p.visit s).run.run st = (.ok (), st')) :
    Reaches p d world (done ++ [s]) later st'

variable {p : Pass σ} {d : Document} {world : σ}

/-- A visit of a site that leads to a node of its kind does the work at that node. -/
theorem work_of_visit {s : Site} {n : Node} {st st' : PassState σ} {r : Except Error Unit}
    (h : s.nodeIn? st.document = some n) (hkind : n.candidateKind? = some s.candidate.kind)
    (hvisit : (p.visit s).run.run st = (r, st')) :
    (r = .ok () ∧ ∃ n', (p.workAt s.attributes s.candidate.kind n).run.run
        ⟨st.report, st.rendering⟩ = (.ok n', ⟨st'.report, st'.rendering⟩) ∧
      s.Changed n n' st.document st'.document) ∨
    ∃ e, r = .error e ∧ (p.workAt s.attributes s.candidate.kind n).run.run
        ⟨st.report, st.rendering⟩ = (.error e, ⟨st'.report, st'.rendering⟩) ∧
      st'.document = st.document := by
  obtain ⟨d', hrun, hok, herror⟩ := p.visit_does h hkind ⟨st.report, st.rendering⟩
  rw [hvisit] at hrun
  rcases hwork : (p.workAt s.attributes s.candidate.kind n).run.run ⟨st.report, st.rendering⟩ with
    ⟨e | n', g'⟩ <;> rw [hwork] at hrun hok herror <;> cases hrun
  · exact Or.inr ⟨e, rfl, rfl, herror e rfl⟩
  · exact Or.inl ⟨rfl, n', rfl, hok n' rfl⟩

/-- What a visit of a site that leads to a node of its kind does to the document. -/
theorem changed_of_visit {s : Site} {n : Node} {st st' : PassState σ} {r : Except Error Unit}
    (h : s.nodeIn? st.document = some n) (hkind : n.candidateKind? = some s.candidate.kind)
    (hvisit : (p.visit s).run.run st = (r, st')) :
    (r = .ok () ∧ ∃ n', n'.Replaces n ∧ n.EditedTo n' ∧ s.Changed n n' st.document st'.document) ∨
      ∃ e, r = .error e ∧ st'.document = st.document ∧ p.host.Raises e := by
  rcases work_of_visit h hkind hvisit with ⟨rfl, n', hwork, hchanged⟩ | ⟨e, rfl, hwork, hdocument⟩
  · obtain ⟨hreplaces, hedited⟩ := p.workAt_ok hkind hwork
    exact Or.inl ⟨rfl, n', hreplaces, hedited, hchanged⟩
  · exact Or.inr ⟨e, rfl, hdocument, p.workAt_failsOnly s.attributes hkind _ _ _ hwork⟩

namespace Reaches

variable {done later : List Site} {st : PassState σ}

/-- Together, the sites are those of the document. -/
theorem sites_eq (h : Reaches p d world done later st) : d.sites = done ++ later := by
  induction h with
  | start => rfl
  | visit h hvisit ih => rw [ih, List.append_assoc, List.singleton_append]

theorem mem_sites (h : Reaches p d world done later st) {s : Site} (hs : s ∈ later) :
    s ∈ d.sites := by
  rw [h.sites_eq]
  exact List.mem_append_right _ hs

/-- The next site comes before all that follow. -/
theorem before_of_mem {s t : Site} (h : Reaches p d world done (s :: later) st) (ht : t ∈ later) :
    s.Before t := by
  have hincreasing := d.sites_increasing
  rw [h.sites_eq] at hincreasing
  exact List.rel_of_pairwise_cons (List.pairwise_append.mp hincreasing).2.1 ht

/-- The next site comes after all that have been visited. -/
theorem before_next {s t : Site} (h : p.Reaches d world done (s :: later) st) (ht : t ∈ done) :
    t.Before s := by
  have hincreasing := d.sites_increasing
  rw [h.sites_eq] at hincreasing
  exact (List.pairwise_append.mp hincreasing).2.2 t ht s List.mem_cons_self

/-- A site that has not been visited leads to what it led to before the pass. -/
theorem later_eq (h : Reaches p d world done later st) :
    ∀ s ∈ later, s.nodeIn? st.document = s.nodeIn? d := by
  induction h with
  | start => exact fun _ _ ↦ rfl
  | @visit done later s st st' h hvisit ih =>
    rw [List.forall_mem_cons] at ih
    obtain ⟨hs, hlater⟩ := ih
    obtain ⟨n, hn, hkind⟩ := (Document.leadsTo_of_mem_sites (h.mem_sites List.mem_cons_self)).node
    rcases changed_of_visit (hs.trans hn) hkind hvisit with
      ⟨-, n', hreplaces, -, hchanged⟩ | ⟨e, he, -⟩
    · -- the visited site comes before `t`, so `t` is not around it
      intro t ht
      rw [← hlater t ht]
      exact hchanged.nodeIn?_of_apart hreplaces (h.before_of_mem ht).not_around
    · cases he

/-- A site that has not been visited leads to a node of its kind. -/
theorem exists_node (h : Reaches p d world done later st) {s : Site} (hs : s ∈ later) :
    ∃ n, s.nodeIn? d = some n ∧ s.nodeIn? st.document = some n ∧
      n.candidateKind? = some s.candidate.kind := by
  obtain ⟨n, hn, hkind⟩ := (Document.leadsTo_of_mem_sites (h.mem_sites hs)).node
  exact ⟨n, hn, (h.later_eq s hs).trans hn, hkind⟩

/-- The cells on the way to a site are still cells for documents. -/
theorem style_of_entered (h : Reaches p d world done later st) (hedited : d.EditedTo st.document)
    {s : Site} (hs : s ∈ later) {before after : List Move}
    (hmoves : s.moves = before ++ .enter :: after) {c : TableCell}
    (hc : (Subtree.document st.document).descend? before = some (.node (.cell c))) :
    c.style = .asciiDoc := by
  obtain ⟨within, path, c₀, rfl, hc₀, hkind⟩ :=
    (Document.leadsTo_of_mem_sites (h.mem_sites hs)).entered before after hmoves
  have hnode : st.document.nodeIn? within path = some (.cell c) := by
    rw [Document.nodeIn?_eq, hc]
    rfl
  -- the cell was one for a document before, and its style is not edited
  have hrel := hedited.node within path
  rw [hc₀, hnode] at hrel
  cases hrel with
  | some hcell =>
    obtain ⟨text, inner, heq, -⟩ := hcell
    cases heq
    exact c₀.style_of_nested hkind

/-- The document that has been reached is an edited one. -/
theorem editedTo (h : Reaches p d world done later st) : d.EditedTo st.document := by
  induction h with
  | start => exact .refl d
  | @visit done later s st st' h hvisit ih =>
    obtain ⟨n, -, hn, hkind⟩ := h.exists_node List.mem_cons_self
    rcases changed_of_visit hn hkind hvisit with
      ⟨-, n', hreplaces, hedited, hchanged⟩ | ⟨e, he, -⟩
    · exact ih.trans (hchanged.editedTo hreplaces hedited fun before after hmoves c hc ↦
        h.style_of_entered ih List.mem_cons_self hmoves hc)
    · cases he

end Reaches

/-- To reach a state is to visit the first sites of the document without an error. -/
theorem reaches_iff {done later : List Site} {st : PassState σ} :
    p.Reaches d world done later st ↔ d.sites = done ++ later ∧
      (done.forM p.visit).run.run (.initial d world) = (.ok (), st) := by
  constructor
  · intro h
    refine ⟨h.sites_eq, ?_⟩
    induction h with
    | start => rfl
    | visit h hvisit ih => rw [Fallible.forM_concat, Fallible.run_bind_of_ok ih, hvisit]
  · rintro ⟨hsites, hrun⟩
    -- sites are added at the end of those that have been visited, so the induction starts there
    induction done using List.reverseRecOn generalizing later st with
    | nil =>
      cases hrun
      rw [List.nil_append] at hsites
      exact hsites ▸ .start
    | append_singleton done s ih =>
      rw [Fallible.forM_concat] at hrun
      obtain ⟨⟨⟩, st₁, hdone, hs⟩ := Fallible.run_bind_eq_ok hrun
      rw [List.append_assoc, List.singleton_append] at hsites
      exact (ih hsites hdone).visit hs

/-- A pass visits all sites, or there is a first one whose visit fails. -/
theorem steps_cases (p : Pass σ) (d : Document) (world : σ) :
    (∃ st, p.steps d world = (.ok (), st) ∧ p.Reaches d world d.sites [] st) ∨
      ∃ done s later st e st', p.steps d world = (.error e, st') ∧
        p.Reaches d world done (s :: later) st ∧ (p.visit s).run.run st = (.error e, st') := by
  rcases Fallible.forM_cases p.visit d.sites (.initial d world) with
    ⟨st, hrun⟩ | ⟨done, s, later, st, e, st', hsites, hdone, hvisit, hrun⟩
  · exact Or.inl ⟨st, hrun, reaches_iff.mpr ⟨(List.append_nil _).symm, hrun⟩⟩
  · exact Or.inr ⟨done, s, later, st, e, st', hrun, reaches_iff.mpr ⟨hsites, hdone⟩, hvisit⟩

/-- A pass that ends with an error has visited some sites, and the visit of the next one has left
the document alone. -/
theorem reaches_of_error {e : Error} (h : (p.run d world).result = .error e) :
    ∃ done s later st st', p.Reaches d world done (s :: later) st ∧
      (p.visit s).run.run st = (.error e, st') ∧ (p.run d world).document = st.document ∧
        p.host.Raises e := by
  rw [run] at h ⊢
  rcases p.steps_cases d world with
    ⟨st, hsteps, -⟩ | ⟨done, s, later, st, e', st', hsteps, hreaches, hvisit⟩ <;>
    rw [hsteps] at h ⊢ <;> cases h
  obtain ⟨n, -, hn, hkind⟩ := hreaches.exists_node List.mem_cons_self
  rcases changed_of_visit hn hkind hvisit with ⟨hok, -⟩ | ⟨e', he, hdocument, hraises⟩
  · cases hok
  · cases he
    exact ⟨done, s, later, st, st', hreaches, hvisit, hdocument, hraises⟩

/-! ### Main results -/

/-- **Sites stay valid.** Whatever a pass has done, each site that it has not visited yet leads to a
node of the kind that is recorded for it, to look at and to change, and so the block or the text
that the visit wants is there and can be replaced. A pass fails only for the sake of a file or with
an error that the engine returns and that does not concern a single equation. -/
theorem sites_resolve (p : Pass σ) (d : Document) (world : σ) :
    (∀ done later st, p.Reaches d world done later st → ∀ s ∈ later,
      (∃ n, s.nodeIn? st.document = some n ∧ n.candidateKind? = some s.candidate.kind ∧
        ∀ change n', change n = some n' → n.SameSort n' →
          ∃ d', st.document.updateIn? change s.within s.candidate.path = some d') ∧
      (s.candidate.kind = .mathBlock → (∃ m, s.blockIn? st.document = some (.math m)) ∧
        ∀ b, ∃ d', s.replaceBlockIn? b st.document = some d') ∧
      (s.candidate.kind.isText = true → (∃ text, s.textIn? st.document = some text) ∧
        ∀ new, ∃ d', s.setTextIn? new st.document = some d') ∧
      (s.candidate.kind = .nestedDocument →
        ∃ inner, st.document.inside? (s.within ++ [s.candidate.path]) = some inner ∧
          d.inside? (s.within ++ [s.candidate.path]) = some inner)) ∧
    ∀ e, (p.run d world).result = .error e → p.host.Raises e := by
  refine ⟨fun done later st h s hs ↦ ?_, fun e he ↦ ?_⟩
  · obtain ⟨n, hnd, hn, hkind⟩ := h.exists_node hs
    refine ⟨⟨n, hn, hkind, fun change n' hchange hsort ↦ ?_⟩, fun hmath ↦ ?_, fun htext ↦ ?_,
      fun hnested ↦ ?_⟩
    · obtain ⟨d', hchanged⟩ := Document.exists_changed hn hsort
      exact ⟨d', hchanged.updateIn?_eq hchange⟩
    · rw [hmath] at hkind
      obtain ⟨m, rfl⟩ := Node.exists_math_of_candidateKind? hkind
      refine ⟨⟨m, by rw [Site.blockIn?_eq, hn]; rfl⟩, fun b ↦ ?_⟩
      have hsort : (Node.block (.math m)).SameSort (.block b) := trivial
      obtain ⟨d', hchanged⟩ := Document.exists_changed hn hsort
      exact ⟨d', hchanged.updateIn?_eq rfl⟩
    · obtain ⟨text, htextOf⟩ := Node.exists_textOf? hkind htext
      refine ⟨⟨text, by rw [Site.textIn?_eq, hn, Option.bind_some, htextOf]⟩, fun new ↦ ?_⟩
      obtain ⟨n', hn'⟩ := Node.exists_setText? htextOf new
      obtain ⟨d', hchanged⟩ := Document.exists_changed hn (Node.replaces_of_setText? hn').sort
      exact ⟨d', hchanged.updateIn?_eq hn'⟩
    · rw [hnested] at hkind
      obtain ⟨inner, hinner⟩ := Node.exists_inner_of_nested hkind
      have hinside : ∀ d : Document, d.inside? (s.within ++ [s.candidate.path])
          = (s.nodeIn? d).bind Node.inner? := fun d ↦ by
        rw [Document.inside?_append]
        exact (Option.bind_assoc _ _ _).symm
      exact ⟨inner, by rw [hinside, hn, Option.bind_some, hinner],
        by rw [hinside, hnd, Option.bind_some, hinner]⟩
  · obtain ⟨done, s, later, st, st', -, -, -, hraises⟩ := reaches_of_error he
    exact hraises

/-- **A pass edits only what it is meant to edit**, whether or not it fails. -/
theorem run_editedTo (p : Pass σ) (d : Document) (world : σ) :
    d.EditedTo (p.run d world).document := by
  cases hresult : (p.run d world).result with
  | error e =>
    obtain ⟨done, s, later, st, st', hreaches, -, hdocument, -⟩ := reaches_of_error hresult
    rw [hdocument]
    exact hreaches.editedTo
  | ok report =>
    rw [run] at hresult ⊢
    rcases p.steps_cases d world with
      ⟨st, hsteps, hreaches⟩ | ⟨done, s, later, st, e, st', hsteps, -⟩ <;>
      rw [hsteps] at hresult ⊢
    · exact hreaches.editedTo
    · cases hresult

/-- **A pass that fails leaves no node half-edited.** The sites before the one at which it failed
have been visited, one after the other and each without an error; the document is what they have
made of it, and every other site leads to what it led to before the pass. -/
theorem exists_reached_of_error (p : Pass σ) (d : Document) (world : σ) (e : Error)
    (h : (p.run d world).result = .error e) :
    ∃ done s later st st', d.sites = done ++ s :: later ∧
      (done.forM p.visit).run.run (.initial d world) = (.ok (), st) ∧
        (p.visit s).run.run st = (.error e, st') ∧ (p.run d world).document = st.document ∧
          ∀ t ∈ s :: later, t.nodeIn? (p.run d world).document = t.nodeIn? d := by
  obtain ⟨done, s, later, st, st', hreaches, hvisit, hdocument, -⟩ := reaches_of_error h
  obtain ⟨hsites, hdone⟩ := reaches_iff.mp hreaches
  refine ⟨done, s, later, st, st', hsites, hdone, hvisit, hdocument, ?_⟩
  rw [hdocument]
  exact hreaches.later_eq

/-- A host that has room for some files and then for no more. -/
def hostWithRoom (engine : Engine) : Host Nat where
  typeset request room := (engine request, room)
  createDirectory _ room := (.ok (), room)
  writeFile _ _ room :=
    match room with
    | 0 => (.error .noSpace, 0)
    | room + 1 => (.ok (), room)

/-- A pass that writes files to it. -/
def passWithRoom : Pass Nat where
  host := hostWithRoom (Prepared.engine ⟨[], 1, 1, none, none⟩)
  options := { Options.initial with dialect := .latex, format := .svg }
  workingDirectory := ⟨"/"⟩

/-- A section with a text of three equations in the document of a cell. -/
def sectionWithCell : Document :=
  ⟨.empty,
    [.sect ⟨"s", 1, "On stem:[a]",
      [.table ⟨none, none,
        [⟨[⟨.asciiDoc, "", some ⟨.empty,
          [.prose ⟨none, none, "paragraph", ["stem:[b], \\stem:[b], stem:[c]"], .normal⟩]⟩,
          1, 1⟩]⟩], 0⟩,
        .math ⟨none, none, "latexmath", "a", none⟩], none⟩]⟩

/-- There is room for the first two equations, and the third one is in the same text as the
second. -/
theorem exists_reached_of_little_room :
    ∃ e, (passWithRoom.run sectionWithCell 2).result = .error e ∧
      ∃ done s later st st', sectionWithCell.sites = done ++ s :: later ∧
        (done.forM passWithRoom.visit).run.run (.initial sectionWithCell 2) = (.ok (), st) ∧
          (passWithRoom.visit s).run.run st = (.error e, st') ∧
            (passWithRoom.run sectionWithCell 2).document = st.document ∧
              ∀ t ∈ s :: later, t.nodeIn? (passWithRoom.run sectionWithCell 2).document
                = t.nodeIn? sectionWithCell := by
  have hfails : (passWithRoom.traversal sectionWithCell 2).1.isOk = false := by decide +kernel
  obtain ⟨e, he⟩ : ∃ e, (passWithRoom.run sectionWithCell 2).result = .error e := by
    rw [(passWithRoom.run_eq_traverse sectionWithCell 2).1]
    rcases htraversal : (passWithRoom.traversal sectionWithCell 2).1 with e | new
    · exact ⟨e, rfl⟩
    · rw [htraversal] at hfails
      cases hfails
  exact ⟨e, he, exists_reached_of_error _ _ _ e he⟩

end Pass

end DocumentMath
