import DocumentMath.Proofs.Document.Hole
import Mathlib.Data.List.Lex

/-!
# Candidates in document order

Paths have an order, in which a node comes before what is below it and the children of a node come
as the document lists them (`NodePath.Before`). The candidates of a document are listed in strictly
increasing order (`Document.candidates_increasing`), and each leads to a node of the kind that is
recorded for it (`Document.candidateKind?_of_mem`). Both are inductions on the tree, with one case
for each function that lists candidates.
-/

namespace DocumentMath

/-! ### The order of paths -/

/-- The order of the children of a node. -/
inductive Step.Before : Step → Step → Prop
  | block {i j : Nat} (h : i < j) : Before (.block i) (.block j)
  | item {i j : Nat} (h : i < j) : Before (.item i) (.item j)
  | row {i j k l : Nat} (h : i < j) : Before (.cell i k) (.cell j l)
  | column {i k l : Nat} (h : k < l) : Before (.cell i k) (.cell i l)

theorem Step.not_before_self (s : Step) : ¬s.Before s := by
  intro h
  cases h with
  | block h | item h | row h | column h => exact Nat.lt_irrefl _ h

/-- The order of documents: a node comes before what is below it. -/
def NodePath.Before (p q : NodePath) : Prop :=
  List.Lex Step.Before p q

theorem lex_append_cons {α : Type} {r : α → α → Prop} (xs : List α) (x : α) (ys : List α) :
    List.Lex r xs (xs ++ x :: ys) := by
  have h := List.Lex.append_left r (List.Lex.nil (a := x) (l := ys)) xs
  rwa [List.append_nil] at h

theorem not_lex_append {α : Type} {r : α → α → Prop} (hr : ∀ a, ¬r a a) (xs ys : List α) :
    ¬List.Lex r (xs ++ ys) xs := by
  induction xs with
  | nil => exact fun h ↦ nomatch h
  | cons x xs ih =>
    intro h
    cases h with
    | rel h => exact hr x h
    | cons h => exact ih h

theorem NodePath.not_before_self (p : NodePath) : ¬p.Before p := by
  have h := not_lex_append Step.not_before_self p []
  rwa [List.append_nil] at h

/-- What is below one child comes before what is below a later one. -/
theorem NodePath.before_of_steps {path p q : NodePath} {s t : Step} (hp : path ++ [s] <+: p)
    (hq : path ++ [t] <+: q) (h : s.Before t) : p.Before q := by
  obtain ⟨p, rfl⟩ := hp
  obtain ⟨q, rfl⟩ := hq
  rw [List.append_assoc, List.append_assoc]
  exact List.Lex.append_left _ (.rel h) path

/-! ### The order of candidates -/

/-- The candidates are at a node or below it, in document order. -/
structure InOrder (path : NodePath) (cs : List Candidate) : Prop where
  below : ∀ c ∈ cs, path <+: c.path
  increasing : cs.Pairwise fun c c' ↦ c.path.Before c'.path

/-- The candidates are at certain children of a node or below them, in document order. -/
structure ChildrenInOrder (path : NodePath) (steps : Step → Prop) (cs : List Candidate) :
    Prop where
  below : ∀ c ∈ cs, ∃ s, steps s ∧ path ++ [s] <+: c.path
  increasing : cs.Pairwise fun c c' ↦ c.path.Before c'.path

namespace ChildrenInOrder

variable {path : NodePath} {steps later all : Step → Prop} {cs ds : List Candidate}

theorem nil : ChildrenInOrder path steps [] :=
  ⟨List.forall_mem_nil _, .nil⟩

theorem of_child {s : Step} (h : InOrder (path ++ [s]) cs) :
    ChildrenInOrder path (· = s) cs :=
  ⟨fun c hc ↦ ⟨s, rfl, h.below c hc⟩, h.increasing⟩

/-- Children are followed by later ones. -/
theorem append (hc : ChildrenInOrder path steps cs) (hd : ChildrenInOrder path later ds)
    (hlt : ∀ s t, steps s → later t → s.Before t) (hsteps : ∀ s, steps s → all s)
    (hlater : ∀ s, later s → all s) : ChildrenInOrder path all (cs ++ ds) where
  below := by
    rw [List.forall_mem_append]
    refine ⟨fun c hmem ↦ ?_, fun c hmem ↦ ?_⟩
    · obtain ⟨s, hs, hle⟩ := hc.below c hmem
      exact ⟨s, hsteps s hs, hle⟩
    · obtain ⟨s, hs, hle⟩ := hd.below c hmem
      exact ⟨s, hlater s hs, hle⟩
  increasing := by
    refine List.pairwise_append.mpr ⟨hc.increasing, hd.increasing, fun c hcmem d hdmem ↦ ?_⟩
    obtain ⟨s, hs, hle⟩ := hc.below c hcmem
    obtain ⟨t, ht, hle'⟩ := hd.below d hdmem
    exact NodePath.before_of_steps hle hle' (hlt s t hs ht)

theorem inOrder (h : ChildrenInOrder path steps cs) : InOrder path cs := by
  refine ⟨fun c hc ↦ ?_, h.increasing⟩
  obtain ⟨s, -, hle⟩ := h.below c hc
  exact (List.prefix_append path [s]).trans hle

/-- A node comes before its children. -/
theorem inOrder_cons (h : ChildrenInOrder path steps cs) (kind : CandidateKind) :
    InOrder path (⟨path, kind⟩ :: cs) := by
  refine ⟨List.forall_mem_cons.mpr ⟨List.prefix_refl _, h.inOrder.below⟩,
    List.pairwise_cons.mpr ⟨fun c hc ↦ ?_, h.increasing⟩⟩
  obtain ⟨s, -, rest, hrest⟩ := h.below c hc
  rw [← hrest, List.append_assoc]
  exact lex_append_cons path s rest

end ChildrenInOrder

theorem inOrder_singleton (path : NodePath) (kind : CandidateKind) :
    InOrder path [⟨path, kind⟩] :=
  ⟨List.forall_mem_singleton.mpr (List.prefix_refl _), List.pairwise_singleton _ _⟩

theorem cellCandidates_inOrder (path : NodePath) (row : Nat) :
    ∀ (column : Nat) (cells : List TableCell),
      ChildrenInOrder path (fun s ↦ ∃ k, column ≤ k ∧ s = .cell row k)
        (cellCandidates path row column cells)
  | _, [] => .nil
  | column, c :: cells => by
    have hc : InOrder (path ++ [.cell row column])
        (c.candidateKind?.map (⟨path ++ [.cell row column], ·⟩ : _ → Candidate)).toList := by
      cases c.candidateKind? with
      | none => exact ⟨List.forall_mem_nil _, .nil⟩
      | some kind => exact inOrder_singleton _ kind
    refine (ChildrenInOrder.of_child hc).append (cellCandidates_inOrder path row (column + 1) cells)
      ?_ ?_ ?_
    · rintro s t rfl ⟨k, hk, rfl⟩
      exact .column hk
    · rintro s rfl
      exact ⟨column, le_refl _, rfl⟩
    · rintro s ⟨k, hk, rfl⟩
      exact ⟨k, Nat.le_of_succ_le hk, rfl⟩

theorem rowCandidates_inOrder (path : NodePath) : ∀ (row : Nat) (rows : List TableRow),
    ChildrenInOrder path (fun s ↦ ∃ i, row ≤ i ∧ ∃ k, s = .cell i k) (rowCandidates path row rows)
  | _, [] => .nil
  | row, r :: rows => by
    refine (cellCandidates_inOrder path row 0 r.cells).append
      (rowCandidates_inOrder path (row + 1) rows) ?_ ?_ ?_
    · rintro s t ⟨k, -, rfl⟩ ⟨i, hi, l, rfl⟩
      exact .row hi
    · rintro s ⟨k, -, rfl⟩
      exact ⟨row, le_refl _, k, rfl⟩
    · rintro s ⟨i, hi, k, rfl⟩
      exact ⟨i, Nat.le_of_succ_le hi, k, rfl⟩

mutual

theorem Block.candidates_inOrder (path : NodePath) : ∀ b : Block, InOrder path (b.candidates path)
  | .math _ => inOrder_singleton path .mathBlock
  | .prose p => by
    rw [Block.candidates]
    split
    · exact inOrder_singleton path .prose
    · exact ⟨List.forall_mem_nil _, .nil⟩
  | .list ⟨_, _, _, items⟩ => (itemCandidates_inOrder path 0 items).inOrder
  | .sect ⟨_, _, _, blocks, _⟩ => (blockCandidates_inOrder path 0 blocks).inOrder_cons .sectionTitle
  | .compound ⟨_, _, _, blocks⟩ => (blockCandidates_inOrder path 0 blocks).inOrder
  | .table ⟨_, _, rows, _⟩ => (rowCandidates_inOrder path 0 rows).inOrder
  | .image _ => ⟨List.forall_mem_nil _, .nil⟩
  | .passthrough _ => ⟨List.forall_mem_nil _, .nil⟩

theorem blockCandidates_inOrder (path : NodePath) : ∀ (index : Nat) (bs : List Block),
    ChildrenInOrder path (fun s ↦ ∃ i, index ≤ i ∧ s = .block i) (blockCandidates path index bs)
  | _, [] => .nil
  | index, b :: bs => by
    refine (ChildrenInOrder.of_child (b.candidates_inOrder (path ++ [.block index]))).append
      (blockCandidates_inOrder path (index + 1) bs) ?_ ?_ ?_
    · rintro s t rfl ⟨i, hi, rfl⟩
      exact .block hi
    · rintro s rfl
      exact ⟨index, le_refl _, rfl⟩
    · rintro s ⟨i, hi, rfl⟩
      exact ⟨i, Nat.le_of_succ_le hi, rfl⟩

theorem itemCandidates_inOrder (path : NodePath) : ∀ (index : Nat) (items : List ListItem),
    ChildrenInOrder path (fun s ↦ ∃ i, index ≤ i ∧ s = .item i) (itemCandidates path index items)
  | _, [] => .nil
  | index, ⟨_, blocks⟩ :: items => by
    have hitem := (blockCandidates_inOrder (path ++ [.item index]) 0 blocks).inOrder_cons .listItem
    refine (ChildrenInOrder.of_child hitem).append
      (itemCandidates_inOrder path (index + 1) items) ?_ ?_ ?_
    · rintro s t rfl ⟨i, hi, rfl⟩
      exact .item hi
    · rintro s rfl
      exact ⟨index, le_refl _, rfl⟩
    · rintro s ⟨i, hi, rfl⟩
      exact ⟨i, Nat.le_of_succ_le hi, rfl⟩

end

/-- The candidates of a document are listed in strictly increasing document order. -/
theorem Document.candidates_increasing (d : Document) :
    d.candidates.Pairwise fun c c' ↦ c.path.Before c'.path :=
  (blockCandidates_inOrder [] 0 d.blocks).increasing

/-! ### Children in the original document -/

/-- From an index on, the children of a node of the document are the members of a list. -/
def Document.HasChildren {α : Type} (d : Document) (path : NodePath) (step : Nat → Step)
    (node : α → Node) (index : Nat) (xs : List α) : Prop :=
  ∀ i x, xs[i]? = some x → d.node? (path ++ [step (index + i)]) = some (node x)

namespace Document

variable {α : Type} {d : Document} {path : NodePath} {step : Nat → Step} {node : α → Node}
  {index : Nat}

theorem HasChildren.head {x : α} {xs : List α} (h : d.HasChildren path step node index (x :: xs)) :
    d.node? (path ++ [step index]) = some (node x) :=
  h 0 x rfl

theorem HasChildren.tail {x : α} {xs : List α} (h : d.HasChildren path step node index (x :: xs)) :
    d.HasChildren path step node (index + 1) xs := by
  intro i y hy
  rw [Nat.add_assoc, Nat.add_comm 1]
  exact h (i + 1) y hy

/-- The children of a node are found with it. -/
theorem hasChildren_of_node? {n : Node} {xs : List α} (h : d.node? path = some n)
    (hchild : ∀ i x, xs[i]? = some x → n.child? (step i) = some (node x)) :
    d.HasChildren path step node 0 xs := by
  intro i x hx
  rw [node?_append h, Nat.zero_add, hchild i x hx]

theorem hasChildren_blocks (d : Document) : d.HasChildren [] .block Node.block 0 d.blocks := by
  intro i b hb
  rw [Nat.zero_add, List.nil_append, node?, hb]
  rfl

end Document

/-! ### The kinds of candidates -/

/-- The kind of candidate that a node is. -/
def Node.candidateKind? : Node → Option CandidateKind
  | block (.math _) => some .mathBlock
  | block (.prose p) => if p.expandsMacros then some .prose else none
  | block (.sect _) => some .sectionTitle
  | block _ => none
  | item _ => some .listItem
  | cell c => c.candidateKind?

/-- That a node is a candidate of a kind. -/
inductive CandidateKind.Fits : CandidateKind → Node → Prop
  | mathBlock (m : MathBlock) : Fits .mathBlock (.block (.math m))
  | prose {p : Prose} (macros : .macros ∈ p.subs.members) : Fits .prose (.block (.prose p))
  | listItem (i : ListItem) : Fits .listItem (.item i)
  | sectionTitle (s : Section) : Fits .sectionTitle (.block (.sect s))
  | nestedDocument {c : TableCell} {inner : Document} (style : c.style = .asciiDoc)
    (inner : c.inner = some inner) : Fits .nestedDocument (.cell c)
  | tableCell {c : TableCell} (literal : c.style ≠ .literal) (asciiDoc : c.style ≠ .asciiDoc) :
    Fits .tableCell (.cell c)

namespace TableCell

variable {c : TableCell} {kind : CandidateKind}

theorem candidateKind?_of_fits (h : kind.Fits (.cell c)) : c.candidateKind? = some kind := by
  cases h with
  | nestedDocument style inner => simp only [candidateKind?, style, inner]
  | tableCell literal asciiDoc =>
    rcases c with ⟨style, text, inner, rowspan, colspan⟩
    cases style with
    | literal => exact absurd rfl literal
    | asciiDoc => exact absurd rfl asciiDoc
    | _ => rfl

theorem fits_of_candidateKind? (h : c.candidateKind? = some kind) : kind.Fits (.cell c) := by
  rw [candidateKind?] at h
  split at h
  · cases h
  · next style inner =>
    cases h
    exact .nestedDocument style inner
  · cases h
  · next literal some none =>
    cases h
    have hasciiDoc : c.style ≠ .asciiDoc := by
      intro h
      cases hinner : c.inner with
      | none => exact none h hinner
      | some d => exact some d h hinner
    exact .tableCell (fun h ↦ literal h) hasciiDoc

end TableCell

theorem CandidateKind.fits_iff {kind : CandidateKind} {n : Node} :
    kind.Fits n ↔ n.candidateKind? = some kind := by
  constructor
  · intro h
    cases n with
    | block b =>
      cases h with
      | mathBlock | sectionTitle => rfl
      | prose macros => exact if_pos (List.contains_iff_mem.mpr macros)
    | item i =>
      cases h
      rfl
    | cell c => exact TableCell.candidateKind?_of_fits h
  · intro h
    rcases n with b | i | c
    · cases b with
      | math m =>
        cases h
        exact .mathBlock m
      | prose p =>
        rw [Node.candidateKind?] at h
        split at h <;> cases h
        next macros => exact .prose (List.contains_iff_mem.mp macros)
      | sect s =>
        cases h
        exact .sectionTitle s
      | _ => cases h
    · cases h
      exact .listItem i
    · exact TableCell.fits_of_candidateKind? h

theorem TableCell.style_of_nested {c : TableCell} (h : c.candidateKind? = some .nestedDocument) :
    c.style = .asciiDoc := by
  cases fits_of_candidateKind? h with
  | nestedDocument style inner => exact style

namespace Node

variable {n : Node}

theorem exists_cell_of_nested (h : n.candidateKind? = some .nestedDocument) :
    ∃ c : TableCell, n = .cell c := by
  cases CandidateKind.fits_iff.mpr h with
  | nestedDocument style inner => exact ⟨_, rfl⟩

theorem exists_inner_of_nested (h : n.candidateKind? = some .nestedDocument) :
    ∃ inner, n.inner? = some inner := by
  cases CandidateKind.fits_iff.mpr h with
  | nestedDocument style inner => exact ⟨_, inner⟩

theorem exists_math_of_candidateKind? (h : n.candidateKind? = some .mathBlock) :
    ∃ m : MathBlock, n = .block (.math m) := by
  cases CandidateKind.fits_iff.mpr h with
  | mathBlock m => exact ⟨m, rfl⟩

/-- A candidate of a kind of text has a text. -/
theorem exists_textOf? {kind : CandidateKind} (h : n.candidateKind? = some kind)
    (hkind : kind.isText = true) : ∃ text, kind.textOf? n = some text := by
  cases CandidateKind.fits_iff.mpr h with
  | mathBlock | nestedDocument => cases hkind
  | prose | listItem | sectionTitle | tableCell => exact ⟨_, rfl⟩

end Node

/-- The candidates lead to nodes of the kinds that are recorded for them. -/
def Document.Lists (d : Document) (cs : List Candidate) : Prop :=
  ∀ c ∈ cs, ∃ n, d.node? c.path = some n ∧ n.candidateKind? = some c.kind

namespace Document

variable {d : Document}

theorem lists_nil : d.Lists [] :=
  List.forall_mem_nil _

theorem lists_append {cs ds : List Candidate} (hc : d.Lists cs) (hd : d.Lists ds) :
    d.Lists (cs ++ ds) :=
  List.forall_mem_append.mpr ⟨hc, hd⟩

theorem lists_cons {path : NodePath} {n : Node} {kind : CandidateKind} {cs : List Candidate}
    (h : d.node? path = some n) (hkind : n.candidateKind? = some kind) (hcs : d.Lists cs) :
    d.Lists (⟨path, kind⟩ :: cs) :=
  List.forall_mem_cons.mpr ⟨⟨n, h, hkind⟩, hcs⟩

theorem lists_cellCandidates {path : NodePath} {row : Nat} :
    ∀ {column : Nat} {cells : List TableCell},
      d.HasChildren path (.cell row) Node.cell column cells →
        d.Lists (cellCandidates path row column cells)
  | _, [], _ => lists_nil
  | column, c :: cells, h => by
    refine lists_append ?_ (lists_cellCandidates h.tail)
    cases hkind : c.candidateKind? with
    | none => exact lists_nil
    | some kind => exact lists_cons h.head hkind lists_nil

theorem lists_rowCandidates {path : NodePath} : ∀ {row : Nat} {rows : List TableRow},
    (∀ i r, rows[i]? = some r → d.HasChildren path (.cell (row + i)) Node.cell 0 r.cells) →
      d.Lists (rowCandidates path row rows)
  | _, [], _ => lists_nil
  | row, r :: rows, h => by
    refine lists_append (lists_cellCandidates (h 0 r rfl)) (lists_rowCandidates fun i r' hr' ↦ ?_)
    have hnext := h (i + 1) r' hr'
    rwa [Nat.add_comm i, ← Nat.add_assoc] at hnext

mutual

theorem lists_candidates : ∀ (b : Block) {path : NodePath}, d.node? path = some (.block b) →
    d.Lists (b.candidates path)
  | .math _, _, h => lists_cons h rfl lists_nil
  | .prose p, path, h => by
    rw [Block.candidates]
    split
    · next hp => exact lists_cons h (if_pos hp) lists_nil
    · exact lists_nil
  | .list ⟨_, _, _, items⟩, _, h =>
    lists_itemCandidates items (hasChildren_of_node? h fun i x hx ↦ by simp [Node.child?, hx])
  | .sect ⟨_, _, _, blocks, _⟩, _, h =>
    lists_cons h rfl (lists_blockCandidates blocks
      (hasChildren_of_node? h fun i x hx ↦ by simp [Node.child?, Block.children?, hx]))
  | .compound ⟨_, _, _, blocks⟩, _, h =>
    lists_blockCandidates blocks
      (hasChildren_of_node? h fun i x hx ↦ by simp [Node.child?, Block.children?, hx])
  | .table ⟨_, _, rows, _⟩, path, h => by
    refine lists_rowCandidates fun i r hr ↦ hasChildren_of_node? h fun j c hc ↦ ?_
    simp [Node.child?, hr, hc]
  | .image _, _, _ => lists_nil
  | .passthrough _, _, _ => lists_nil

theorem lists_blockCandidates : ∀ (bs : List Block) {path : NodePath} {index : Nat},
    d.HasChildren path .block Node.block index bs → d.Lists (blockCandidates path index bs)
  | [], _, _, _ => lists_nil
  | b :: bs, _, _, h => lists_append (lists_candidates b h.head) (lists_blockCandidates bs h.tail)

theorem lists_itemCandidates : ∀ (items : List ListItem) {path : NodePath} {index : Nat},
    d.HasChildren path .item Node.item index items → d.Lists (itemCandidates path index items)
  | [], _, _, _ => lists_nil
  | ⟨_, blocks⟩ :: items, _, _, h =>
    lists_append
      (lists_cons h.head rfl (lists_blockCandidates blocks
        (hasChildren_of_node? h.head fun i x hx ↦ by simp [Node.child?, hx])))
      (lists_itemCandidates items h.tail)

end

/-- Each candidate leads to a node of the kind that is recorded for it. -/
theorem candidateKind?_of_mem (d : Document) : d.Lists d.candidates :=
  lists_blockCandidates d.blocks d.hasChildren_blocks

end Document

end DocumentMath
