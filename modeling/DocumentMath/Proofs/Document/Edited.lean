import DocumentMath.Proofs.Document.Candidates
import DocumentMath.Proofs.Document.Place

/-!
# Edited documents

`Document.EditedTo` says what a pass may do to a document. Every path leads to a node if it did
before, in the document and in those in its cells, and each node may change in its own way only
(`Node.EditedTo`): a math block may become an image or markup, and the texts of candidates may be
others. A change of one node that is such an edit is an edit of the document, provided that the
cells on the way to it are cells for documents (`Document.Changed.editedTo`).
-/

namespace DocumentMath

/-- What may become of a node, apart from the nodes below it. -/
def Node.EditedTo : Node → Node → Prop
  | block (.math m), n =>
    n = block (.math m) ∨
      (∃ i : ImageBlock, n = block (.image i) ∧ i.id = m.id ∧ i.title = m.title) ∨
      ∃ q : PassthroughBlock, n = block (.passthrough q) ∧ q.id = m.id ∧ q.title = m.title
  | block (.prose p), n =>
    ∃ lines, n = block (.prose { p with lines }) ∧ (p.expandsMacros = false → lines = p.lines)
  | block (.list l), n => ∃ items, n = block (.list { l with items })
  | block (.sect s), n =>
    ∃ title blocks converted, n = block (.sect { s with title, blocks, converted }) ∧
      (title = s.title ∧ converted = s.converted ∨ converted = none)
  | block (.table t), n =>
    ∃ rows, n = block (.table { t with rows }) ∧ rows.length = t.rows.length
  | block (.compound c), n => ∃ blocks, n = block (.compound { c with blocks })
  | block (.image i), n => n = block (.image i)
  | block (.passthrough q), n => n = block (.passthrough q)
  | item _, n => ∃ text blocks, n = item ⟨text, blocks⟩
  | cell c, n =>
    ∃ text inner, n = cell { c with text, inner } ∧
      (c.style = .literal ∨ c.style = .asciiDoc → text = c.text) ∧
        (c.style ≠ .asciiDoc → inner = c.inner) ∧ inner.isSome = c.inner.isSome

namespace Node.EditedTo

variable {n m k : Node}

theorem refl (n : Node) : n.EditedTo n := by
  rcases n with b | i | c
  · cases b with
    | math m => exact Or.inl rfl
    | prose p => exact ⟨p.lines, rfl, fun _ ↦ rfl⟩
    | list l => cases l; exact ⟨_, rfl⟩
    | sect s => cases s; exact ⟨_, _, _, rfl, Or.inl ⟨rfl, rfl⟩⟩
    | table t => cases t; exact ⟨_, rfl, rfl⟩
    | compound c => cases c; exact ⟨_, rfl⟩
    | image i => rfl
    | passthrough q => rfl
  · cases i; exact ⟨_, _, rfl⟩
  · cases c; exact ⟨_, _, rfl, fun _ ↦ rfl, fun _ ↦ rfl, rfl⟩

theorem trans (h : n.EditedTo m) (h' : m.EditedTo k) : n.EditedTo k := by
  rcases n with b | i | c
  · cases b with
    | math b =>
      rcases h with rfl | ⟨i, rfl, hi⟩ | ⟨q, rfl, hq⟩
      · exact h'
      · exact Or.inr (Or.inl ⟨i, h', hi⟩)
      · exact Or.inr (Or.inr ⟨q, h', hq⟩)
    | prose p =>
      obtain ⟨lines, rfl, hlines⟩ := h
      obtain ⟨lines', rfl, hlines'⟩ := h'
      exact ⟨lines', rfl, fun hp ↦ (hlines' hp).trans (hlines hp)⟩
    | list l =>
      obtain ⟨items, rfl⟩ := h
      obtain ⟨items', rfl⟩ := h'
      exact ⟨items', rfl⟩
    | sect s =>
      obtain ⟨title, blocks, converted, rfl, hs⟩ := h
      obtain ⟨title', blocks', converted', rfl, hs'⟩ := h'
      refine ⟨title', blocks', converted', rfl, ?_⟩
      rcases hs' with ⟨rfl, rfl⟩ | hs'
      · exact hs
      · exact Or.inr hs'
    | table t =>
      obtain ⟨rows, rfl, hrows⟩ := h
      obtain ⟨rows', rfl, hrows'⟩ := h'
      exact ⟨rows', rfl, hrows'.trans hrows⟩
    | compound c =>
      obtain ⟨blocks, rfl⟩ := h
      obtain ⟨blocks', rfl⟩ := h'
      exact ⟨blocks', rfl⟩
    | image i =>
      cases h
      exact h'
    | passthrough q =>
      cases h
      exact h'
  · obtain ⟨text, blocks, rfl⟩ := h
    obtain ⟨text', blocks', rfl⟩ := h'
    exact ⟨text', blocks', rfl⟩
  · obtain ⟨text, inner, rfl, htext, hinner, hsome⟩ := h
    obtain ⟨text', inner', rfl, htext', hinner', hsome'⟩ := h'
    exact ⟨text', inner', rfl, fun hc ↦ (htext' hc).trans (htext hc),
      fun hc ↦ (hinner' hc).trans (hinner hc), hsome'.trans hsome⟩

end Node.EditedTo

/-- What may become of a subtree, apart from what is below it. -/
def Subtree.EditedTo : Subtree → Subtree → Prop
  | document d, document d' => d'.attributes = d.attributes
  | node n, node n' => n.EditedTo n'
  | _, _ => False

namespace Subtree

theorem EditedTo.refl : ∀ t : Subtree, t.EditedTo t
  | document _ => rfl
  | node n => Node.EditedTo.refl n

/-- To exchange a child is an edit, unless it is the document in a cell that is not for one. -/
theorem editedTo_of_setChild? {t t' c c' : Subtree} {x : Move} (h : IsChild t x c)
    (hset : t.setChild? x c' = some t')
    (hcell : x = .enter → ∀ c : TableCell, t = node (.cell c) → c.style = .asciiDoc) :
    t.EditedTo t' := by
  cases h <;> obtain ⟨d⟩ | ⟨b | i | c⟩ := c' <;> cases hset
  case block => rfl
  case blockOfSection => exact ⟨_, _, _, rfl, Or.inl ⟨rfl, rfl⟩⟩
  case blockOfCompound => exact ⟨_, rfl⟩
  case blockOfItem => exact ⟨_, _, rfl⟩
  case item => exact ⟨_, rfl⟩
  case cell => exact ⟨_, rfl, List.length_modify _ _ _⟩
  case inner =>
    have hstyle := hcell rfl _ rfl
    exact ⟨_, _, rfl, fun _ ↦ rfl, fun hne ↦ absurd hstyle hne, rfl⟩

end Subtree

/-- What a pass may do to a document. -/
structure Document.EditedTo (d d' : Document) : Prop where
  /-- The same paths lead to nodes, and each of these is edited at most. -/
  node : ∀ within path, Option.Rel Node.EditedTo (d.nodeIn? within path) (d'.nodeIn? within path)
  /-- The documents in cells are the same, too, and have their attributes. -/
  attributes : ∀ within,
    (d'.inside? within).map (·.attributes) = (d.inside? within).map (·.attributes)
  /-- And each has as many blocks. -/
  totalBlocks : ∀ within,
    (d'.inside? within).map totalBlocks = (d.inside? within).map totalBlocks

theorem rel_bind {α β : Type} {R : α → α → Prop} {S : β → β → Prop} {a b : Option α}
    {f : α → Option β} (h : Option.Rel R a b) (hf : ∀ x y, R x y → Option.Rel S (f x) (f y)) :
    Option.Rel S (a.bind f) (b.bind f) := by
  cases h with
  | none => exact .none
  | some hR => exact hf _ _ hR

theorem map_eq_of_rel {α β : Type} {f : α → β} {a b : Option α}
    (h : Option.Rel (fun x y ↦ f y = f x) a b) : b.map f = a.map f := by
  cases h with
  | none => rfl
  | some heq => exact congrArg some heq

namespace Document

theorem EditedTo.refl (d : Document) : d.EditedTo d where
  node within path := by
    cases d.nodeIn? within path with
    | none => exact .none
    | some n => exact .some (Node.EditedTo.refl n)
  attributes _ := rfl
  totalBlocks _ := rfl

theorem EditedTo.trans {d d' d'' : Document} (h : d.EditedTo d') (h' : d'.EditedTo d'') :
    d.EditedTo d'' where
  node within path := by
    have hnode := h.node within path
    have hnode' := h'.node within path
    generalize d.nodeIn? within path = n, d'.nodeIn? within path = n',
      d''.nodeIn? within path = n'' at hnode hnode' ⊢
    cases hnode with
    | none => exact hnode'
    | some hn =>
      cases hnode' with
      | some hn' => exact .some (hn.trans hn')
  attributes within := (h'.attributes within).trans (h.attributes within)
  totalBlocks within := (h'.totalBlocks within).trans (h.totalBlocks within)

/-- To edit a node is to edit the document, if the cells on the way are cells for documents. -/
theorem Changed.editedTo {d d' : Document} {within : List NodePath} {path : NodePath}
    {n n' : Node} (h : Changed within path n n' d d') (hreplaces : n'.Replaces n)
    (hedited : n.EditedTo n')
    (hcells : ∀ before after, Move.toNode within path = before ++ .enter :: after →
      ∀ c, (Subtree.document d).descend? before = some (.node (.cell c)) →
        c.style = .asciiDoc) : d.EditedTo d' := by
  have hrel : ∀ moves, Option.Rel Subtree.EditedTo ((Subtree.document d).descend? moves)
      ((Subtree.document d').descend? moves) := by
    intro moves
    -- around the change, one child has been exchanged for another
    refine Subtree.Changed.rel_descend? Subtree.EditedTo.refl h hreplaces.below (fun _ ↦ hedited)
      fun x after hmoves s c c' s' hs hchild hset ↦ ?_
    refine Subtree.editedTo_of_setChild? hchild hset ?_
    rintro rfl cell rfl
    exact hcells moves after hmoves cell hs
  refine ⟨fun within path ↦ ?_, fun within ↦ ?_, h.totalBlocks_inside? hreplaces⟩
  · rw [Document.nodeIn?_eq, Document.nodeIn?_eq]
    refine rel_bind (hrel _) fun t t' ht ↦ ?_
    cases t <;> cases t' <;> first | exact ht.elim | exact .none | exact .some ht
  · rw [inside?_eq, inside?_eq]
    refine map_eq_of_rel (rel_bind (hrel _) fun t t' ht ↦ ?_)
    cases t <;> cases t' <;> first | exact ht.elim | exact .none | exact .some ht

end Document

end DocumentMath
