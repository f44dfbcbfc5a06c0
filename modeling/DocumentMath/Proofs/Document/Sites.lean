import DocumentMath.Proofs.Document.Candidates
import DocumentMath.Proofs.Document.Place

/-!
# Sites in document order

The sites of a document, those of the documents in its cells included, are addressed by moves from
the top of the document (`Site.moves`). They are listed in strictly increasing order
(`Document.sites_increasing`), so that no site stands below a later one. Each leads to a node of the
kind that is recorded for it, through cells for documents (`Document.leadsTo_of_mem_sites`).
-/

namespace DocumentMath

/-! ### The sites of candidates -/

/-- The sites that candidates of a document make, those of nested documents included. -/
def Document.sitesOf (d : Document) (within : List NodePath) (attributes : Attributes)
    (cs : List Candidate) : List Site :=
  cs.flatMap fun c ↦
    ⟨within, c, attributes⟩ ::
      match c.kind, d.inner? c.path with
      | .nestedDocument, some inner =>
        inner.sitesWithin (within ++ [c.path]) (attributes.extend inner.attributes)
      | _, _ => []

section Sites

variable {d : Document} {within : List NodePath} {attributes : Attributes}

theorem Document.sitesWithin_eq :
    d.sitesWithin within attributes = d.sitesOf within attributes d.candidates := by
  rw [sitesWithin, sitesOf]
  congr 1
  funext c
  congr 1
  split
  · simp only [*]
  · next h =>
    split
    · next hkind hinner => exact absurd hinner (h _ hkind)
    · rfl

theorem Document.sitesOf_append (cs ds : List Candidate) :
    d.sitesOf within attributes (cs ++ ds)
      = d.sitesOf within attributes cs ++ d.sitesOf within attributes ds :=
  List.flatMap_append

theorem Document.sitesOf_cons_of_ne {c : Candidate} (hc : c.kind ≠ .nestedDocument)
    (cs : List Candidate) :
    d.sitesOf within attributes (c :: cs)
      = ⟨within, c, attributes⟩ :: d.sitesOf within attributes cs := by
  rw [sitesOf, List.flatMap_cons]
  split
  · next h _ => exact absurd h hc
  · rfl

theorem Document.sitesOf_nested {path : NodePath} {inner : Document}
    (h : d.inner? path = some inner) :
    d.sitesOf within attributes [⟨path, .nestedDocument⟩]
      = ⟨within, ⟨path, .nestedDocument⟩, attributes⟩ ::
        inner.sitesWithin (within ++ [path]) (attributes.extend inner.attributes) := by
  simp [sitesOf, h]

end Sites

/-! ### The order of moves -/

/-- The document in a cell comes before whatever else is below. -/
inductive Move.Before : Move → Move → Prop
  | enter {s : Step} : Before .enter (.step s)
  | step {s t : Step} (h : s.Before t) : Before (.step s) (.step t)

theorem Move.not_before_self (x : Move) : ¬x.Before x := by
  intro h
  cases h with
  | step h => exact Step.not_before_self _ h

/-- What is at a path, or in the document there, comes before what is at a later path. -/
theorem Move.lex_of_before {p q : NodePath} (h : p.Before q) {rest : List Move}
    (hrest : ∀ x ∈ rest.head?, x = .enter) (rest' : List Move) :
    List.Lex Move.Before (p.map .step ++ rest) (q.map .step ++ rest') := by
  induction h with
  | nil =>
    cases rest with
    | nil => exact .nil
    | cons x rest =>
      obtain rfl := hrest x rfl
      exact .rel .enter
  | cons _ ih => exact .cons ih
  | rel h => exact .rel (.step h)

theorem Move.enter_not_mem (p : NodePath) : Move.enter ∉ p.map Move.step := by
  simp

/-- Moves that go along a path and then into a document do not go into another one before. -/
theorem Move.enter_cases {p : NodePath} {rest before after : List Move}
    (h : p.map .step ++ .enter :: rest = before ++ .enter :: after) :
    before = p.map .step ∨
      ∃ mid, before = p.map .step ++ .enter :: mid ∧ rest = mid ++ .enter :: after := by
  induction p generalizing before with
  | nil =>
    cases before with
    | nil => exact Or.inl rfl
    | cons x mid =>
      obtain ⟨rfl, hrest⟩ := List.cons.inj h
      exact Or.inr ⟨mid, rfl, hrest⟩
  | cons s p ih =>
    cases before with
    | nil => cases h
    | cons x before =>
      obtain ⟨rfl, hrest⟩ := List.cons.inj h
      rcases ih hrest with rfl | ⟨mid, rfl, hmid⟩
      · exact Or.inl rfl
      · exact Or.inr ⟨mid, rfl, hmid⟩

/-- The moves to a site from the top of the document. -/
def Site.moves (s : Site) : List Move :=
  Move.toNode s.within s.candidate.path

/-- The moves to a site go through the cell of its document. -/
theorem Site.moves_of_within {s : Site} {within way : List NodePath} {path : NodePath}
    (h : s.within = within ++ [path] ++ way) :
    s.moves = Move.toNode within path ++ .enter :: Move.toNode way s.candidate.path := by
  simp [Site.moves, h, Move.toNode, Move.into]

/-- The order of sites in a document. -/
def Site.Before (s t : Site) : Prop :=
  List.Lex Move.Before s.moves t.moves

/-- No site is around an earlier one, and none is at its place. -/
theorem Site.Before.not_around {s t : Site} (h : s.Before t) : ¬t.moves <+: s.moves := by
  rintro ⟨rest, hrest⟩
  rw [Site.Before, ← hrest] at h
  exact not_lex_append Move.not_before_self _ _ h

theorem Site.Before.ne {s t : Site} (h : s.Before t) : t.moves ≠ s.moves :=
  fun heq ↦ h.not_around (heq ▸ List.prefix_refl _)

/-! ### Sites and nodes -/

namespace Site

variable (s : Site) (d : Document)

/-- The node at a site of a document. -/
def nodeIn? : Option Node :=
  d.nodeIn? s.within s.candidate.path

theorem textIn?_eq : s.textIn? d = (s.nodeIn? d).bind s.candidate.kind.textOf? :=
  (Option.bind_assoc _ _ _).symm

theorem blockIn?_eq : s.blockIn? d = (s.nodeIn? d).bind Node.block? :=
  (Option.bind_assoc _ _ _).symm

/-- The second document is the first one with another node at the site. -/
def Changed (n n' : Node) (d d' : Document) : Prop :=
  Document.Changed s.within s.candidate.path n n' d d'

end Site

/-! ### The sites of a document -/

namespace Document

/-- The sites of a candidate: its own and, if there is a document in it, those of that. -/
theorem sitesOf_singleton_cases (d : Document) (within : List NodePath) (attributes : Attributes)
    (c : Candidate) :
    d.sitesOf within attributes [c] = [⟨within, c, attributes⟩] ∨
      ∃ inner, c.kind = .nestedDocument ∧ d.inner? c.path = some inner ∧
        d.sitesOf within attributes [c] = ⟨within, c, attributes⟩ ::
          inner.sitesWithin (within ++ [c.path]) (attributes.extend inner.attributes) := by
  obtain ⟨path, kind⟩ := c
  by_cases hkind : kind = .nestedDocument
  · subst hkind
    cases hinner : d.inner? path with
    | none => exact Or.inl (by simp [sitesOf, hinner])
    | some inner => exact Or.inr ⟨inner, rfl, rfl, sitesOf_nested hinner⟩
  · exact Or.inl (sitesOf_cons_of_ne hkind [])

theorem mem_sitesOf_singleton {d : Document} {within : List NodePath} {attributes : Attributes}
    {c : Candidate} {s : Site} (h : s ∈ d.sitesOf within attributes [c]) :
    s = ⟨within, c, attributes⟩ ∨ ∃ inner, c.kind = .nestedDocument ∧
      d.inner? c.path = some inner ∧
        s ∈ inner.sitesWithin (within ++ [c.path]) (attributes.extend inner.attributes) := by
  rcases d.sitesOf_singleton_cases within attributes c with heq | ⟨inner, hkind, hinner, heq⟩ <;>
    rw [heq] at h
  · exact Or.inl (List.mem_singleton.mp h)
  · exact (List.mem_cons.mp h).imp_right fun hs ↦ ⟨inner, hkind, hinner, hs⟩

theorem sitesWithin_eq_flatMap (d : Document) (within : List NodePath) (attributes : Attributes) :
    d.sitesWithin within attributes
      = d.candidates.flatMap fun c ↦ d.sitesOf within attributes [c] := by
  rw [sitesWithin_eq, sitesOf]
  simp [sitesOf]

/-- What holds of a document if it holds of the documents in its cells holds of all documents. -/
theorem inner_induction {motive : Document → Prop}
    (h : ∀ d, (∀ path inner, d.inner? path = some inner → motive inner) → motive d)
    (d : Document) : motive d :=
  h d fun _ inner _ ↦ inner_induction h inner
termination_by sizeOf d
decreasing_by exact sizeOf_inner?_lt ‹_›

/-- The way to a site: the paths that lead to its document from the one it is listed for. There it
leads to a node of the recorded kind, and wherever it enters a document, there is a cell that is a
candidate for that. -/
structure LeadsTo (d : Document) (way : List NodePath) (s : Site) : Prop where
  node : ∃ n, d.nodeIn? way s.candidate.path = some n ∧ n.candidateKind? = some s.candidate.kind
  entered : ∀ before after, Move.toNode way s.candidate.path = before ++ .enter :: after →
    ∃ within path c, before = Move.toNode within path ∧ d.nodeIn? within path = some (.cell c) ∧
      c.candidateKind? = some .nestedDocument

theorem exists_leadsTo (d : Document) : ∀ {within : List NodePath} {attributes : Attributes}
    {s : Site}, s ∈ d.sitesWithin within attributes →
      ∃ way, s.within = within ++ way ∧ d.LeadsTo way s := by
  induction d using inner_induction with
  | h d ih =>
    intro within attributes s hs
    rw [sitesWithin_eq_flatMap] at hs
    obtain ⟨c, hc, hs⟩ := List.mem_flatMap.mp hs
    obtain ⟨n, hn, hkind⟩ := d.candidateKind?_of_mem c hc
    rcases mem_sitesOf_singleton hs with rfl | ⟨inner, hnested, hinner, hs⟩
    · refine ⟨[], (List.append_nil _).symm, ⟨n, hn, hkind⟩, fun before after h ↦ ?_⟩
      have hpath : c.path.map Move.step = before ++ .enter :: after := h
      exact absurd (hpath ▸ List.mem_append_right _ List.mem_cons_self) (Move.enter_not_mem c.path)
    · obtain ⟨way, hway, hleads⟩ := ih c.path inner hinner hs
      refine ⟨c.path :: way, by rw [hway, List.append_assoc, List.singleton_append], ?_, ?_⟩
      · obtain ⟨m, hm, hmkind⟩ := hleads.node
        exact ⟨m, by rw [nodeIn?_cons, hinner, Option.bind_some, hm], hmkind⟩
      · intro before after h
        rw [Move.toNode_cons] at h
        -- the first document that is entered is that of the candidate's own cell
        rcases Move.enter_cases h with rfl | ⟨mid, rfl, hrest⟩
        · rw [hnested] at hkind
          obtain ⟨x, rfl⟩ := Node.exists_cell_of_nested hkind
          exact ⟨[], c.path, x, rfl, hn, hkind⟩
        · obtain ⟨within, path, x, rfl, hx, hxkind⟩ := hleads.entered mid after hrest
          refine ⟨c.path :: within, path, x, (Move.toNode_cons _ _ _).symm, ?_, hxkind⟩
          rw [nodeIn?_cons, hinner, Option.bind_some, hx]

/-- A site of a document leads to a node of the recorded kind. -/
theorem leadsTo_of_mem_sites {d : Document} {s : Site} (h : s ∈ d.sites) :
    d.LeadsTo s.within s := by
  obtain ⟨way, hway, hleads⟩ := d.exists_leadsTo h
  rw [List.nil_append] at hway
  exact hway ▸ hleads

/-! ### Document order -/

/-- The sites of a candidate are at its node or in the document there. -/
theorem moves_of_mem_sitesOf {d : Document} {within : List NodePath} {attributes : Attributes}
    {c : Candidate} {s : Site} (h : s ∈ d.sitesOf within attributes [c]) :
    ∃ rest, s.moves = Move.toNode within c.path ++ rest ∧ ∀ x ∈ rest.head?, x = .enter := by
  rcases mem_sitesOf_singleton h with rfl | ⟨inner, -, -, hs⟩
  · exact ⟨[], (List.append_nil _).symm, fun x hx ↦ nomatch hx⟩
  · obtain ⟨way, hway, -⟩ := inner.exists_leadsTo hs
    exact ⟨_, Site.moves_of_within hway, fun x hx ↦ by cases hx; rfl⟩

theorem sitesWithin_increasing (d : Document) : ∀ (within : List NodePath)
    (attributes : Attributes), (d.sitesWithin within attributes).Pairwise Site.Before := by
  induction d using inner_induction with
  | h d ih =>
    intro within attributes
    rw [sitesWithin_eq_flatMap, List.pairwise_flatMap]
    refine ⟨fun c _ ↦ ?_, d.candidates_increasing.imp fun hbefore s hs t ht ↦ ?_⟩
    · rcases d.sitesOf_singleton_cases within attributes c with heq | ⟨inner, -, hinner, heq⟩ <;>
        rw [heq]
      · exact List.pairwise_singleton _ _
      · refine List.pairwise_cons.mpr ⟨fun s hs ↦ ?_, ih c.path inner hinner _ _⟩
        -- whatever is in the document is reached from the cell
        obtain ⟨way, hway, -⟩ := inner.exists_leadsTo hs
        rw [Site.Before, Site.moves_of_within hway]
        exact lex_append_cons _ _ _
    · -- sites of different candidates are ordered as the candidates are
      obtain ⟨rest, hrest, hhead⟩ := moves_of_mem_sitesOf hs
      obtain ⟨rest', hrest', -⟩ := moves_of_mem_sitesOf ht
      rw [Site.Before, hrest, hrest', Move.toNode, Move.toNode, List.append_assoc,
        List.append_assoc]
      exact List.Lex.append_left _ (Move.lex_of_before hbefore hhead rest') _

/-- The sites of a document are listed in strictly increasing document order. -/
theorem sites_increasing (d : Document) : d.sites.Pairwise Site.Before :=
  d.sitesWithin_increasing [] d.attributes

end Document

end DocumentMath
