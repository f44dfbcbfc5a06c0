import DocumentMath.Proofs.Document.Candidates

/-!
# Which nodes are candidates

The list of candidates is made by walking through a document, and a node is found by following a
path. Both come to the same nodes: the candidates of a document are exactly the nodes that fit a
kind, each under its path and its kind (`Document.mem_candidates_iff`). That nothing else is listed
is `Document.candidateKind?_of_mem`. That nothing is left out is an induction on the path: the
candidates at a node are among those at the node around it (`Node.candidates_of_child?`), so that
they are among those of the document, however deep the node stands.

`Document.candidates_list_fitting_nodes` says this together with the order of the list.
-/

namespace DocumentMath

/-! ### Candidates at a node -/

/-- The candidates at the node at a path, itself included. -/
def Node.candidates (path : NodePath) : Node → List Candidate
  | block b => b.candidates path
  | item i => ⟨path, .listItem⟩ :: blockCandidates path 0 i.blocks
  | cell c => (c.candidateKind?.map (⟨path, ·⟩)).toList

/-- What is listed for one member of a list is among what is listed for all of them, from an index
on. -/
theorem subset_of_getElem? {α : Type} (all : Nat → List α → List Candidate)
    (one : Nat → α → List Candidate)
    (hcons : ∀ index x xs, all index (x :: xs) = one index x ++ all (index + 1) xs)
    {xs : List α} {i : Nat} {x : α} (h : xs[i]? = some x) (index : Nat) :
    one (index + i) x ⊆ all index xs := by
  induction xs generalizing i index with
  | nil => cases h
  | cons y xs ih =>
    rw [hcons]
    cases i with
    | zero =>
      cases h
      exact List.subset_append_left _ _
    | succ i =>
      rw [← Nat.add_assoc, Nat.add_right_comm]
      exact List.Subset.trans (ih h (index + 1)) (List.subset_append_right _ _)

section Children

variable {i j : Nat} {path : NodePath}

theorem candidates_subset_of_block {bs : List Block} {b : Block} (h : bs[i]? = some b) :
    b.candidates (path ++ [.block i]) ⊆ blockCandidates path 0 bs := by
  have hsubset := subset_of_getElem? (blockCandidates path)
    (fun index b ↦ b.candidates (path ++ [.block index])) (fun _ _ _ ↦ rfl) h 0
  rwa [Nat.zero_add] at hsubset

theorem candidates_subset_of_item {items : List ListItem} {item : ListItem}
    (h : items[i]? = some item) :
    (Node.item item).candidates (path ++ [.item i]) ⊆ itemCandidates path 0 items := by
  have hsubset := subset_of_getElem? (itemCandidates path)
    (fun index item ↦ (Node.item item).candidates (path ++ [.item index]))
    (fun _ item _ ↦ by cases item; rfl) h 0
  rwa [Nat.zero_add] at hsubset

theorem candidates_subset_of_cell {rows : List TableRow} {r : TableRow} {c : TableCell}
    (hr : rows[i]? = some r) (hc : r.cells[j]? = some c) :
    (Node.cell c).candidates (path ++ [.cell i j]) ⊆ rowCandidates path 0 rows := by
  have hrow := subset_of_getElem? (rowCandidates path)
    (fun row r ↦ cellCandidates path row 0 r.cells) (fun _ _ _ ↦ rfl) hr 0
  have hcell := subset_of_getElem? (cellCandidates path i)
    (fun column c ↦ (Node.cell c).candidates (path ++ [.cell i column]))
    (fun _ _ _ ↦ rfl) hc 0
  rw [Nat.zero_add] at hrow hcell
  exact List.Subset.trans hcell hrow

end Children

namespace Node

variable {n m : Node} {kind : CandidateKind}

/-- The candidates at a child are among those at the node around it. -/
theorem candidates_of_child? {s : Step} (h : n.child? s = some m) (path : NodePath) :
    m.candidates (path ++ [s]) ⊆ n.candidates path := by
  unfold child? at h
  split at h
  · next l index =>
    obtain ⟨i, hi, rfl⟩ := Option.map_eq_some_iff.mp h
    cases l
    exact candidates_subset_of_item hi
  · next t row column =>
    obtain ⟨r, hr, h⟩ := Option.bind_eq_some_iff.mp h
    obtain ⟨c, hc, h⟩ := Option.bind_eq_some_iff.mp h
    cases h
    cases t
    exact candidates_subset_of_cell hr hc
  · next b index =>
    obtain ⟨children, hchildren, h⟩ := Option.bind_eq_some_iff.mp h
    obtain ⟨child, hchild, h⟩ := Option.bind_eq_some_iff.mp h
    cases h
    have hsubset : child.candidates (path ++ [.block index]) ⊆ blockCandidates path 0 children :=
      candidates_subset_of_block hchild
    cases b with
    | sect s =>
      cases s
      cases hchildren
      exact List.Subset.trans hsubset (List.subset_cons_self _ _)
    | compound c =>
      cases c
      cases hchildren
      exact hsubset
    | _ => cases hchildren
  · next i index =>
    obtain ⟨b, hb, rfl⟩ := Option.map_eq_some_iff.mp h
    exact List.Subset.trans (candidates_subset_of_block hb) (List.subset_cons_self _ _)
  · cases h

/-- A node that fits a kind is listed among the candidates at it. -/
theorem mem_candidates_of_fits (h : kind.Fits n) (path : NodePath) :
    ⟨path, kind⟩ ∈ n.candidates path := by
  have hkind := CandidateKind.fits_iff.mp h
  cases h with
  | mathBlock | listItem => exact List.mem_cons_self
  | sectionTitle s =>
    cases s
    exact List.mem_cons_self
  | prose macros =>
    have hmacros : Prose.expandsMacros _ = true := List.contains_iff_mem.mpr macros
    rw [candidates, Block.candidates, if_pos hmacros]
    exact List.mem_cons_self
  | nestedDocument | tableCell =>
    rw [candidateKind?] at hkind
    rw [candidates, hkind]
    exact List.mem_cons_self

/-- However deep a node stands, it is listed if it fits a kind. -/
theorem mem_candidates_of_descend? (hkind : kind.Fits m) {steps : List Step}
    (h : n.descend? steps = some m) (path : NodePath) :
    ⟨path ++ steps, kind⟩ ∈ n.candidates path := by
  induction steps generalizing n path with
  | nil =>
    cases h
    rw [List.append_nil]
    exact mem_candidates_of_fits hkind path
  | cons s steps ih =>
    obtain ⟨c, hc, h⟩ := Option.bind_eq_some_iff.mp h
    have hmem := candidates_of_child? hc path (ih h (path ++ [s]))
    rwa [List.append_assoc] at hmem

end Node

/-! ### Main results -/

namespace Document

/-- The candidates of a document are the nodes that fit a kind. -/
theorem mem_candidates_iff {d : Document} {path : NodePath} {kind : CandidateKind} :
    ⟨path, kind⟩ ∈ d.candidates ↔ ∃ n, d.node? path = some n ∧ kind.Fits n := by
  constructor
  · intro h
    obtain ⟨n, hn, hkind⟩ := d.candidateKind?_of_mem _ h
    exact ⟨n, hn, CandidateKind.fits_iff.mpr hkind⟩
  · rintro ⟨n, hn, hfits⟩
    unfold node? at hn
    split at hn
    · next index steps =>
      obtain ⟨b, hb, hn⟩ := Option.bind_eq_some_iff.mp hn
      exact candidates_subset_of_block hb (Node.mem_candidates_of_descend? hfits hn [.block index])
    · cases hn

/-- **The candidates of a document are exactly its fitting nodes, once each and in document
order**, and those of a kind of text have a text. -/
theorem candidates_list_fitting_nodes (d : Document) :
    (d.candidates.map Candidate.path).Nodup ∧
    d.candidates.Pairwise (fun c c' ↦ c.path.Before c'.path) ∧
    (∀ path kind, ⟨path, kind⟩ ∈ d.candidates ↔ ∃ n, d.node? path = some n ∧ kind.Fits n) ∧
    ∀ c ∈ d.candidates, c.kind.isText = true → ∃ text, d.textOf? c = some text := by
  refine ⟨?_, d.candidates_increasing, fun path kind ↦ mem_candidates_iff, fun c hc htext ↦ ?_⟩
  · refine List.pairwise_map.mpr (d.candidates_increasing.imp fun h heq ↦ ?_)
    exact NodePath.not_before_self _ (heq ▸ h)
  · obtain ⟨n, hn, hkind⟩ := d.candidateKind?_of_mem c hc
    obtain ⟨text, htextOf⟩ := n.exists_textOf? hkind htext
    exact ⟨text, by rw [textOf?, hn, Option.bind_some, htextOf]⟩

end Document

end DocumentMath
