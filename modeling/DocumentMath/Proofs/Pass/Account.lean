import DocumentMath.Proofs.Document.Spots
import DocumentMath.Proofs.Pass.Attempts
import DocumentMath.Proofs.Pass.Left

/-!
# Every equation is accounted for

The accounts of a document have an entry for each site, which tells what has come of the equations
there (`Pass.entry`). They are made by rendering the equations of the document as it is given, one
after the other, without a look at what the pass makes of it. The main result,
`Pass.report_accounts`, is that the report of a pass agrees with them (`Pass.Accounts`).

What carries the proof is an invariant of the visits, `Pass.Reaches.exists_entries`: what has been
added to the report agrees with the entries of the sites that have been visited (`Pass.Adds`), and
the renderer keeps what they say. A visit sees the document as the earlier visits have left it; but
its own node is as it was in the beginning, and no visit touches the text of another site.
-/

namespace DocumentMath

open Inline

variable {σ : Type}

/-! ### The accounts -/

/-- A site of a document, and what has come of the equations there. -/
structure SiteEntry where
  site : Site
  attempts : List Attempt

namespace SiteEntry

/-- The equations that have failed, in order. -/
def failures (e : SiteEntry) : List Failure :=
  e.attempts.filterMap Attempt.failure?

/-- The identifiers of the equations that have been rendered. -/
def identifiers (e : SiteEntry) : List String :=
  e.attempts.filterMap Attempt.identifier?

/-- The failures at the sites of some kinds. -/
def failuresAt (kinds : CandidateKind → Bool) (es : List SiteEntry) : List Failure :=
  (es.filter fun e ↦ kinds e.site.candidate.kind).flatMap failures

theorem failuresAt_singleton {kinds : CandidateKind → Bool} {e : SiteEntry}
    (h : kinds e.site.candidate.kind = true) : failuresAt kinds [e] = e.failures := by
  simp [failuresAt, h]

theorem failuresAt_singleton_of_not {kinds : CandidateKind → Bool} {e : SiteEntry}
    (h : kinds e.site.candidate.kind = false) : failuresAt kinds [e] = [] := by
  simp [failuresAt, h]

end SiteEntry

/-- An occurrence with nothing in it to typeset. -/
def Inline.Occurrence.isSkipped (o : Occurrence) : Bool :=
  !o.escaped && o.isBlank

namespace Pass

variable (p : Pass σ) (d : Document)

/-- The equations at a site of a document, in order. -/
def inputsIn (s : Site) : List NamedInput :=
  (s.spotIn? d).toList.flatMap p.inputsAt

/-- The inline equations that are written at a site of a document. -/
def occurrencesIn (s : Site) : List Occurrence :=
  (s.textIn? d).toList.flatMap (scan p.options.dialect)

theorem occurrencesIn_of_not_isText {s : Site} (h : s.candidate.kind.isText = false) :
    p.occurrencesIn d s = [] := by
  have hnone : s.textIn? d = none := by
    rw [Site.textIn?_eq]
    cases s.nodeIn? d with
    | none => rfl
    | some n => exact CandidateKind.textOf?_of_not_isText h n
  rw [occurrencesIn, hnone, Option.toList_none, List.flatMap_nil]

theorem occurrencesIn_of_text {s : Site} {text : String} (h : s.textIn? d = some text) :
    p.occurrencesIn d s = scan p.options.dialect text := by
  rw [occurrencesIn, h, Option.toList_some, List.flatMap_singleton]

/-- Renders the equations at a site of a document and puts down what comes of them. -/
def entry (s : Site) : ExceptT Error (StateM (RenderState σ)) SiteEntry :=
  SiteEntry.mk s <$> (p.inputsIn d s).mapM p.attempt

end Pass

/-- A report accounts for every equation of a document exactly once, as the entries of its sites and
the document afterwards tell. -/
structure Pass.Accounts (p : Pass σ) (d after : Document) (es : List SiteEntry) (report : Report) :
    Prop where
  /-- There is an entry for each site, -/
  sites : es.map SiteEntry.site = d.sites
  /-- and the sites are in document order, each of them listed once. -/
  inOrder : d.sites.Pairwise Site.Before
  /-- An entry tells what has come of each equation at its site, in order. -/
  equations : es.map (·.attempts.map Attempt.equation) = d.sites.map (p.inputsIn d)
  /-- The equations that have failed are listed with what was to be typeset. -/
  failures : report.failures = es.flatMap SiteEntry.failures
  /-- A math block has been replaced, or skipped, or its equation has failed. -/
  blocks : report.mathBlocks + report.skippedBlocks
      + (SiteEntry.failuresAt (· == .mathBlock) es).length
    = d.sites.countP (·.candidate.kind == .mathBlock)
  /-- An inline equation has been replaced, or has lost its backslash, or is skipped, or has
  failed. -/
  inline : report.inlineEquations + report.escaped
      + (d.sites.flatMap (p.occurrencesIn d)).countP Occurrence.isSkipped
      + (SiteEntry.failuresAt CandidateKind.isText es).length
    = (d.sites.flatMap (p.occurrencesIn d)).length
  /-- The documents in cells are counted at all levels. -/
  nested : report.nestedDocuments = d.sites.countP (·.candidate.kind == .nestedDocument)
  /-- The texts that have been changed are those that differ, -/
  changed : report.spansChanged = d.sites.countP fun s ↦ s.textIn? after ≠ s.textIn? d
  /-- and no text differs but that of a site. -/
  elsewhere : ∀ within path (kind : CandidateKind),
    (after.nodeIn? within path).bind kind.textOf? ≠ (d.nodeIn? within path).bind kind.textOf? →
      ∃ s ∈ d.sites, s.within = within ∧ s.candidate.path = path ∧ s.candidate.kind = kind
  /-- There is a file for each identifier that has been rendered, unless artifacts are embedded. -/
  files : report.filesWritten
    = if p.options.embed then 0 else (es.flatMap SiteEntry.identifiers).dedup.length

/-! ### What is added to a report -/

/-- What has been added to a report agrees with the entries of some sites: each of their equations
has been counted once. -/
structure Pass.Adds (p : Pass σ) (d : Document) (es : List SiteEntry) (changes : Nat)
    (r r' : Report) : Prop where
  failures : r'.failures = r.failures ++ es.flatMap SiteEntry.failures
  blocks : r'.mathBlocks + r'.skippedBlocks + (SiteEntry.failuresAt (· == .mathBlock) es).length
    = r.mathBlocks + r.skippedBlocks + es.countP (·.site.candidate.kind == .mathBlock)
  inline : r'.inlineEquations + r'.escaped
      + (es.flatMap fun e ↦ p.occurrencesIn d e.site).countP Occurrence.isSkipped
      + (SiteEntry.failuresAt CandidateKind.isText es).length
    = r.inlineEquations + r.escaped + (es.flatMap fun e ↦ p.occurrencesIn d e.site).length
  nested : r'.nestedDocuments
    = r.nestedDocuments + es.countP (·.site.candidate.kind == .nestedDocument)
  changed : r'.spansChanged = r.spansChanged + changes

namespace Pass.Adds

variable {p : Pass σ} {d : Document} {es es' : List SiteEntry} {changes changes' : Nat}
  {r r' r'' : Report}

theorem refl (p : Pass σ) (d : Document) (r : Report) : p.Adds d [] 0 r r where
  failures := (List.append_nil _).symm
  blocks := rfl
  inline := rfl
  nested := rfl
  changed := rfl

theorem trans (h : p.Adds d es changes r r') (h' : p.Adds d es' changes' r' r'') :
    p.Adds d (es ++ es') (changes + changes') r r'' where
  failures := by rw [h'.failures, h.failures, List.flatMap_append, List.append_assoc]
  blocks := by
    have hes := h.blocks
    have hes' := h'.blocks
    simp only [SiteEntry.failuresAt, List.filter_append, List.flatMap_append, List.length_append,
      List.countP_append] at hes hes' ⊢
    omega
  inline := by
    have hes := h.inline
    have hes' := h'.inline
    simp only [SiteEntry.failuresAt, List.filter_append, List.flatMap_append, List.length_append,
      List.countP_append] at hes hes' ⊢
    omega
  nested := by rw [h'.nested, h.nested, List.countP_append, Nat.add_assoc]
  changed := by rw [h'.changed, h.changed, Nat.add_assoc]

end Pass.Adds

/-- Each occurrence is escaped, or blank, or asked about. -/
theorem Inline.countP_add_length_asked (os : List Occurrence) :
    os.countP (·.escaped) + os.countP Occurrence.isSkipped + (os.filter Occurrence.isAsked).length
      = os.length := by
  induction os with
  | nil => rfl
  | cons o os ih =>
    rw [List.countP_cons, List.countP_cons, List.filter_cons, List.length_cons, ← ih]
    cases hescaped : o.escaped <;> cases hblank : o.isBlank <;>
      simp only [Occurrence.isSkipped, Occurrence.isAsked, hescaped, hblank, Bool.not_true,
        Bool.not_false, Bool.and_true, Bool.and_false, if_true, if_false, List.length_cons,
        Bool.false_eq_true] <;> omega

section Noted

variable {p : Pass σ} {d : Document} {s : Site} {as : List Attempt} {r : Report}

/-- The equation of a math block is accounted for: it has none exactly if it is skipped. -/
theorem Pass.adds_math {m : MathBlock} (hkind : s.candidate.kind = .mathBlock)
    (hlength : as.length = (p.inputsAt (.math m)).length) :
    p.Adds d [⟨s, as⟩] 0 r (p.noted as false r (.math m)) := by
  have htext : s.candidate.kind.isText = false := by rw [hkind]; rfl
  have hone : as.countP Attempt.isRendered + (if (p.typesettable? m).isNone then 1 else 0)
      + (as.filterMap Attempt.failure?).length = 1 := by
    rw [Nat.add_right_comm, Attempt.countP_add_length, hlength, inputsAt, List.length_map]
    cases p.typesettable? m <;> rfl
  constructor
  · rw [List.flatMap_singleton]
    rfl
  · rw [SiteEntry.failuresAt_singleton (by rw [hkind]; rfl), List.countP_singleton, hkind]
    simp only [noted, SiteEntry.failures, beq_self_eq_true, if_true]
    omega
  · rw [SiteEntry.failuresAt_singleton_of_not htext, List.flatMap_singleton,
      p.occurrencesIn_of_not_isText d htext]
    rfl
  · rw [List.countP_singleton, hkind]
    rfl
  · rfl

/-- The inline equations of a text are accounted for. -/
theorem Pass.adds_text {attributes : Attributes} {text : String} {changed : Bool}
    (hkind : s.candidate.kind.isText = true) (htext : s.textIn? d = some text)
    (hlength : as.length = (p.inputsAt (.text attributes text)).length) :
    p.Adds d [⟨s, as⟩] (if changed then 1 else 0) r
      (p.noted as changed r (.text attributes text)) := by
  have hkinds : ∀ other : CandidateKind, other.isText = false →
      (s.candidate.kind == other) = false := fun other hother ↦
    beq_eq_false_iff_ne.mpr fun heq ↦ Bool.false_ne_true (hother.symm.trans (heq ▸ hkind))
  have hblock := hkinds .mathBlock rfl
  have hcell := hkinds .nestedDocument rfl
  have hattempts := Attempt.countP_add_length as
  have hoccurrences := countP_add_length_asked (scan p.options.dialect text)
  rw [hlength, inputsAt, List.length_map, asked] at hattempts
  constructor
  · rw [List.flatMap_singleton]
    rfl
  · rw [SiteEntry.failuresAt_singleton_of_not hblock, List.countP_singleton, hblock]
    rfl
  · rw [SiteEntry.failuresAt_singleton hkind, List.flatMap_singleton,
      p.occurrencesIn_of_text d htext]
    simp only [noted, SiteEntry.failures]
    omega
  · rw [List.countP_singleton, hcell]
    rfl
  · rfl

/-- A document in a cell is counted, and there are no equations at its own site. -/
theorem Pass.adds_nested (hkind : s.candidate.kind = .nestedDocument)
    (hlength : as.length = (p.inputsAt .nested).length) :
    p.Adds d [⟨s, as⟩] 0 r (p.noted as false r .nested) := by
  have htext : s.candidate.kind.isText = false := by rw [hkind]; rfl
  cases List.eq_nil_of_length_eq_zero hlength
  constructor
  · exact (List.append_nil _).symm
  · rw [SiteEntry.failuresAt_singleton_of_not (by rw [hkind]; rfl), List.countP_singleton, hkind]
    rfl
  · rw [SiteEntry.failuresAt_singleton_of_not htext, List.flatMap_singleton,
      p.occurrencesIn_of_not_isText d htext]
    rfl
  · rw [List.countP_singleton, hkind]
    rfl
  · rfl

/-- The report after a site agrees with the entry of the site. -/
theorem Pass.adds_noted {n : Node} {x : Spot} {changed : Bool} (hn : s.nodeIn? d = some n)
    (hkind : n.candidateKind? = some s.candidate.kind)
    (hx : n.spot? s.attributes s.candidate.kind = some x)
    (hlength : as.length = (p.inputsAt x).length)
    (hchanged : s.candidate.kind.isText = false → changed = false) :
    p.Adds d [⟨s, as⟩] (if changed then 1 else 0) r (p.noted as changed r x) := by
  rcases n.candidate_cases hkind with ⟨m, hmath, rfl⟩ | hnested | ⟨htext, text, htextOf⟩
  · rw [hmath] at hx
    cases hx
    rw [hchanged (by rw [hmath]; rfl)]
    exact adds_math hmath hlength
  · rw [hnested] at hx
    cases hx
    rw [hchanged (by rw [hnested]; rfl)]
    exact adds_nested hnested hlength
  · rw [Node.spot?_text htext htextOf] at hx
    cases hx
    exact adds_text htext (by rw [Site.textIn?_eq, hn, Option.bind_some, htextOf]) hlength

end Noted

/-! ### A single visit -/

section Visit

variable {p : Pass σ} {attributes : Attributes} {kind : CandidateKind} {n n' : Node}
  {g g' : Progress σ}

/-- The work at a node renders the equations there, and no text but its own changes. -/
theorem Pass.workAt_attempts (hkind : n.candidateKind? = some kind)
    (h : (p.workAt attributes kind n).run.run g = (.ok n', g')) :
    (∃ x as, n.spot? attributes kind = some x ∧
      ((p.inputsAt x).mapM p.attempt).run.run g.rendering = (.ok as, g'.rendering) ∧
        g'.report = p.noted as (decide (kind.textOf? n' ≠ kind.textOf? n)) g.report x) ∧
      ∀ other ≠ kind, other.textOf? n' = other.textOf? n := by
  rcases n.candidate_cases hkind with ⟨m, rfl, rfl⟩ | rfl | ⟨htext, text, htextOf⟩
  · obtain ⟨b, hb, rfl⟩ := Fallible.run_map_eq_ok h
    obtain ⟨as, has, hreport⟩ := Work.math_attempts hb
    refine ⟨⟨_, as, rfl, has, hreport⟩, fun other _ ↦ ?_⟩
    rcases Work.math_ok p hb with rfl | ⟨dialect, latex, a, rfl⟩
    · rfl
    · rw [MathBlock.replacement]
      cases other <;> split <;> rfl
  · obtain ⟨u, hcount, rfl⟩ := Fallible.run_map_eq_ok h
    cases hcount
    exact ⟨⟨.nested, [], rfl, rfl, rfl⟩, fun _ _ ↦ rfl⟩
  · rw [workAt_text htext htextOf] at h
    obtain ⟨new?, hnew, rfl⟩ := Fallible.run_map_eq_ok h
    obtain ⟨as, has, hreport, hne⟩ := Work.text_attempts hnew
    refine ⟨⟨_, as, Node.spot?_text htext htextOf, has, hreport.trans ?_⟩, fun other hother ↦ ?_⟩
    · cases new? with
      | none => simp
      | some new =>
        obtain ⟨n', hn'⟩ := Node.exists_setText? htextOf new
        simp [hn', CandidateKind.textOf?_setText? hn', htextOf, hne new rfl]
    · cases new? with
      | none => rfl
      | some new =>
        obtain ⟨n', hn'⟩ := Node.exists_setText? htextOf new
        rw [Option.bind_some, hn', Option.getD_some]
        exact CandidateKind.textOf?_setText?_ne hn' hother

end Visit

/-! ### The visits of a pass -/

namespace Pass.Reaches

variable {p : Pass σ} {d : Document} {world : σ} {done later : List Site} {st : PassState σ}

/-- Only the texts of sites that have been visited differ. -/
theorem textOf?_eq (h : p.Reaches d world done later st) {within : List NodePath}
    {path : NodePath} {kind : CandidateKind}
    (hne : ∀ s ∈ done, s.within = within → s.candidate.path = path → s.candidate.kind ≠ kind) :
    (st.document.nodeIn? within path).bind kind.textOf?
      = (d.nodeIn? within path).bind kind.textOf? := by
  induction h with
  | start => rfl
  | @visit done later s st st' h hvisit ih =>
    rw [List.forall_mem_append] at hne
    obtain ⟨n, -, hn, hkind⟩ := h.exists_node List.mem_cons_self
    rw [← ih hne.1]
    rcases work_of_visit hn hkind hvisit with ⟨-, n', hwork, hchanged⟩ | ⟨e, he, -⟩
    · -- at the place of the site itself, only the text of its own kind may differ
      by_cases hplace : Move.toNode within path = s.moves
      · obtain ⟨rfl, rfl⟩ := Move.toNode_inj hplace
        rw [Document.Changed.before hchanged, Document.Changed.after hchanged]
        exact (workAt_attempts hkind hwork).2 kind (hne.2 s List.mem_cons_self rfl rfl).symm
      · exact Document.Changed.textOf?_eq hchanged (p.workAt_ok hkind hwork).1 hplace kind
    · cases he

/-- A visit leaves the texts of the sites before alone. -/
theorem textIn?_of_visit {s t : Site} {st' : PassState σ}
    (h : p.Reaches d world done (s :: later) st) (hvisit : (p.visit s).run.run st = (.ok (), st'))
    (ht : t ∈ done) : t.textIn? st'.document = t.textIn? st.document := by
  rw [Site.textIn?_eq, Site.textIn?_eq]
  exact h.bind_nodeIn?_of_visit t.candidate.kind.isOwn_textOf? hvisit ht

/-- A visit does to the renderer what the entry of its site does, and to the report what the entry
says. -/
theorem adds_of_visit {s : Site} {st' : PassState σ}
    (h : p.Reaches d world done (s :: later) st)
    (hvisit : (p.visit s).run.run st = (.ok (), st')) :
    ∃ as, ((p.inputsIn d s).mapM p.attempt).run.run st.rendering = (.ok as, st'.rendering) ∧
      p.Adds d [⟨s, as⟩] ([s].countP fun s ↦ s.textIn? st'.document ≠ s.textIn? d)
        st.report st'.report := by
  obtain ⟨n, hnd, hn, hkind⟩ := h.exists_node List.mem_cons_self
  rcases work_of_visit hn hkind hvisit with ⟨-, n', hwork, hchanged⟩ | ⟨e, he, -⟩
  · obtain ⟨⟨x, as, hx, has, hreport⟩, -⟩ := workAt_attempts hkind hwork
    have hinputs : p.inputsIn d s = p.inputsAt x := by
      rw [inputsIn, Site.spotIn?, hnd, Option.bind_some, hx, Option.toList_some,
        List.flatMap_singleton]
    have hafter : s.textIn? st'.document = s.candidate.kind.textOf? n' := by
      rw [Site.textIn?_eq, Site.nodeIn?, Document.Changed.after hchanged, Option.bind_some]
    have hbefore : s.textIn? d = s.candidate.kind.textOf? n := by
      rw [Site.textIn?_eq, hnd, Option.bind_some]
    have hlength : as.length = (p.inputsAt x).length := by
      rw [← equation_of_attempts has, List.length_map]
    refine ⟨as, by rw [hinputs, has], ?_⟩
    rw [List.countP_singleton, hafter, hbefore, show st'.report = _ from hreport]
    refine adds_noted hnd hkind hx hlength fun hnotText ↦ ?_
    simp [CandidateKind.textOf?_of_not_isText hnotText]
  · cases he

/-- The entries of the sites that have been visited agree with the report so far. -/
theorem exists_entries (h : p.Reaches d world done later st) :
    ∃ es, (done.mapM (p.entry d)).run.run ⟨.initial, world⟩ = (.ok es, st.rendering) ∧
      es.map SiteEntry.site = done ∧
      es.map (·.attempts.map Attempt.equation) = done.map (p.inputsIn d) ∧
      p.Adds d es (done.countP fun s ↦ s.textIn? st.document ≠ s.textIn? d) .empty st.report ∧
        st.rendering.renderer.Keeps p.options.embed (es.flatMap SiteEntry.identifiers) := by
  induction h with
  | start => exact ⟨[], rfl, rfl, rfl, .refl p d _, .initial _⟩
  | @visit done later s st st' h hvisit ih =>
    obtain ⟨es, hrun, hsites, hequations, hadds, hkeeps⟩ := ih
    obtain ⟨as, has, hadd⟩ := h.adds_of_visit hvisit
    -- the visit makes no other site's text differ
    have hcount : done.countP (fun t ↦ t.textIn? st'.document ≠ t.textIn? d)
        = done.countP fun t ↦ t.textIn? st.document ≠ t.textIn? d :=
      List.countP_congr fun t ht ↦ by rw [h.textIn?_of_visit hvisit ht]
    refine ⟨es ++ [⟨s, as⟩], ?_, ?_, ?_, ?_, ?_⟩
    · exact Fallible.run_mapM_concat hrun (Fallible.run_map_of_ok _ has)
    · rw [List.map_append, hsites, List.map_singleton]
    · rw [List.map_append, hequations, List.map_append, List.map_singleton, List.map_singleton,
        equation_of_attempts has]
    · rw [List.countP_append, hcount]
      exact hadds.trans hadd
    · rw [List.flatMap_append, List.flatMap_singleton]
      exact keeps_of_attempts hkeeps has

end Pass.Reaches

/-! ### The whole pass -/

namespace Pass

/-- **Every equation is accounted for exactly once.** The pass does to its surroundings what it
does to them to render the equations of the document one after the other, site by site, and when it
succeeds its report agrees with what comes of them. -/
theorem report_accounts (p : Pass σ) (d : Document) (world : σ) (report : Report)
    (h : (p.run d world).result = .ok report) :
    ∃ es st, (d.sites.mapM (p.entry d)).run.run ⟨.initial, world⟩ = (.ok es, st) ∧
      st.world = (p.run d world).world ∧ p.Accounts d (p.run d world).document es report := by
  rw [run] at h ⊢
  rcases p.steps_cases d world with
    ⟨st, hsteps, hreaches⟩ | ⟨done, s, later, st, e, st', hsteps, -⟩ <;> rw [hsteps] at h ⊢ <;>
    cases h
  obtain ⟨es, hrun, hsites, hequations, hadds, hkeeps⟩ := hreaches.exists_entries
  have hcount : ∀ f : Site → Bool, (es.countP fun e ↦ f e.site) = d.sites.countP f :=
    fun f ↦ by rw [← hsites, List.countP_map]; rfl
  have hflat : (es.flatMap fun e ↦ p.occurrencesIn d e.site)
      = d.sites.flatMap (p.occurrencesIn d) := by rw [← hsites, List.flatMap_map]
  refine ⟨es, st.rendering, hrun, rfl, hsites, d.sites_increasing, hequations, hadds.failures,
    ?_, ?_, ?_, ?_, fun within path kind hne ↦ ?_, hkeeps.filesWritten_eq⟩
  · rw [← hcount]
    simpa [Report.empty] using hadds.blocks
  · rw [← hflat]
    simpa [Report.empty] using hadds.inline
  · rw [← hcount]
    simpa [Report.empty] using hadds.nested
  · simpa [Report.empty] using hadds.changed
  · by_contra hnone
    exact hne (hreaches.textOf?_eq fun s hs hwithin hpath hkind ↦
      hnone ⟨s, hs, hwithin, hpath, hkind⟩)

/-- A pass that writes what the engine makes to files. -/
def passWriting : Pass Unit where
  host := .writable engineRejectingY
  options := { Options.initial with dialect := .latex, format := .svg }
  workingDirectory := ⟨"/"⟩

/-- A document with everything that an equation can come to: blocks that are replaced, rejected and
skipped, and inline equations that are replaced, rejected, blank, escaped and, in the document of a
cell, replaced once more. -/
def variedDocument : Document :=
  ⟨.empty,
    [.math ⟨some "a", none, "latexmath", "x", none⟩,
      .math ⟨none, none, "latexmath", "y", none⟩,
      .math ⟨none, none, "music", "x", none⟩,
      .prose ⟨none, none, "paragraph", ["stem:[z], stem:[y], stem:[ ] and \\stem:[z]"], .normal⟩,
      .table ⟨none, none,
        [⟨[⟨.asciiDoc, "", some ⟨.empty, [.list ⟨none, none, .unordered '*',
          [⟨"stem:[z]", []⟩]⟩]⟩, 1, 1⟩]⟩], 0⟩]⟩

/-- The report on that document. -/
def variedReport : Report where
  mathBlocks := 1
  skippedBlocks := 1
  spansScanned := 2
  spansChanged := 2
  inlineEquations := 2
  escaped := 1
  nestedDocuments := 1
  filesWritten := 2
  failures := [⟨"$$y$$", "Math engine error: no such letter"⟩,
    ⟨"$y$", "Math engine error: no such letter"⟩]

theorem result_of_variety : (passWriting.run variedDocument ()).result = .ok variedReport := by
  have hok : (passWriting.traversal variedDocument ()).1.isOk = true := by decide +kernel
  have hreport : { (passWriting.traversal variedDocument ()).2.report with
      filesWritten := (passWriting.traversal variedDocument ()).2.rendering.renderer.filesWritten }
        = variedReport := by decide +kernel
  rw [(passWriting.run_eq_traverse variedDocument ()).1, hreport]
  rcases htraversal : (passWriting.traversal variedDocument ()).1 with e | new
  · rw [htraversal] at hok
    cases hok
  · rfl

theorem report_accounts_of_variety :
    (passWriting.run variedDocument ()).result = .ok variedReport ∧
      ∃ es st, (variedDocument.sites.mapM (passWriting.entry variedDocument)).run.run
          ⟨.initial, ()⟩ = (.ok es, st) ∧
        st.world = (passWriting.run variedDocument ()).world ∧
        passWriting.Accounts variedDocument (passWriting.run variedDocument ()).document es
          variedReport :=
  ⟨result_of_variety, report_accounts _ _ _ _ result_of_variety⟩

end Pass

end DocumentMath
