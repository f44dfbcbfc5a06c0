import DocumentMath.Document.Candidate

/-!
# Going through a document

A traversal goes through the tree of a document once and rebuilds it. At each place that may hold
equations it does what a `Visitor` says: a math block may become another block, a text may become
another text, and a document in a table cell is announced before it is entered. The visitor's
effects are in any monad, so that a traversal can compute, count or fail.

`Document.spots` lists the places in the order in which a traversal comes to them. Two traversals
are related in whatever way their visitors are related at the spots (`Document.traverse_related`),
for each relation of effects that `pure` and `bind` respect (`EffectRelation`).
-/

namespace DocumentMath

/-! ### Edited nodes -/

/-- The block with another text, if there is one. -/
def Prose.edited (new? : Option String) (p : Prose) : Prose :=
  new?.elim p p.setText

/-- The section with another title, if there is one. -/
def Section.edited (new? : Option String) (s : Section) : Section :=
  new?.elim s s.setTitle

/-- The lines of a text, put together, are the text. -/
theorem Prose.intercalate_linesOf (text : String) : "\n".intercalate (linesOf text) = text := by
  have hinverse : ∀ parts : List (List Char), (parts.map String.ofList).map String.toList = parts :=
    fun parts ↦ (List.map_map ..).trans (List.map_id'' (fun _ ↦ String.toList_ofList) parts)
  apply String.toList_injective
  rw [String.toList_intercalate, linesOf, Text.partsBetween_eq_splitOn, hinverse]
  exact List.intercalate_splitOn '\n'

/-- A text that has been set is the text. -/
theorem Prose.text_edited (new? : Option String) (p : Prose) :
    (p.edited new?).text = new?.getD p.text := by
  cases new? with
  | none => rfl
  | some text => exact intercalate_linesOf text

theorem Prose.expandsMacros_edited (new? : Option String) (p : Prose) :
    (p.edited new?).expandsMacros = p.expandsMacros := by
  cases new? <;> rfl

/-- A section with another title differs in that and in what is known of its conversion; the blocks
under it make no difference to that. -/
theorem Section.edited_eq (new? : Option String) (id : Option String) (level : UInt8)
    (title : String) (converted : Option String) :
    ∃ converted', ∀ blocks, Section.edited new? ⟨id, level, title, blocks, converted⟩
      = ⟨id, level, new?.getD title, blocks, converted'⟩ := by
  cases new? with
  | none => exact ⟨converted, fun _ ↦ rfl⟩
  | some new => exact ⟨none, fun _ ↦ rfl⟩

/-! ### Traversals -/

/-- What a traversal does where a document may hold equations. -/
structure Visitor (m : Type → Type) where
  /-- What becomes of a math block. -/
  math : MathBlock → m Block
  /-- The new text in the place of a text, under the attributes in force, if there is one. -/
  text : Attributes → String → m (Option String)
  /-- What is done at a document in a table cell. -/
  nested : m Unit

section Traverse

variable {m : Type → Type} [Monad m] (v : Visitor m)

mutual

/-- The traversal of a block. -/
def Block.traverse (attributes : Attributes) : Block → m Block
  | .math b => v.math b
  | .prose p =>
    if p.expandsMacros then do
      let new? ← v.text attributes p.text
      pure (.prose (p.edited new?))
    else pure (.prose p)
  | .list ⟨id, title, style, items⟩ => do
    let items ← traverseItems attributes items
    pure (.list ⟨id, title, style, items⟩)
  | .sect ⟨id, level, title, blocks, converted⟩ => do
    let new? ← v.text attributes title
    let blocks ← traverseBlocks attributes blocks
    pure (.sect (Section.edited new? ⟨id, level, title, blocks, converted⟩))
  | .compound ⟨id, title, context, blocks⟩ => do
    let blocks ← traverseBlocks attributes blocks
    pure (.compound ⟨id, title, context, blocks⟩)
  | .table ⟨id, title, rows, headerRows⟩ => do
    let rows ← traverseRows attributes rows
    pure (.table ⟨id, title, rows, headerRows⟩)
  | .image b => pure (.image b)
  | .passthrough b => pure (.passthrough b)

/-- The traversal of blocks. -/
def traverseBlocks (attributes : Attributes) : List Block → m (List Block)
  | [] => pure []
  | b :: bs => do
    let b ← b.traverse attributes
    let bs ← traverseBlocks attributes bs
    pure (b :: bs)

/-- The traversal of the items of a list. -/
def traverseItems (attributes : Attributes) : List ListItem → m (List ListItem)
  | [] => pure []
  | ⟨text, blocks⟩ :: items => do
    let new? ← v.text attributes text
    let blocks ← traverseBlocks attributes blocks
    let items ← traverseItems attributes items
    pure (⟨new?.getD text, blocks⟩ :: items)

/-- The traversal of the rows of a table. -/
def traverseRows (attributes : Attributes) : List TableRow → m (List TableRow)
  | [] => pure []
  | ⟨cells⟩ :: rows => do
    let cells ← traverseCells attributes cells
    let rows ← traverseRows attributes rows
    pure (⟨cells⟩ :: rows)

/-- The traversal of the cells of a row. -/
def traverseCells (attributes : Attributes) : List TableCell → m (List TableCell)
  | [] => pure []
  | c :: cells => do
    let c ← c.traverse attributes
    let cells ← traverseCells attributes cells
    pure (c :: cells)

/-- The traversal of a table cell. -/
def TableCell.traverse (attributes : Attributes) : TableCell → m TableCell
  | ⟨style, text, inner, rowspan, colspan⟩ =>
    match style with
    | .literal => pure ⟨style, text, inner, rowspan, colspan⟩
    | .asciiDoc => do
      let inner ← traverseInner attributes inner
      pure ⟨style, text, inner, rowspan, colspan⟩
    | _ => do
      let new? ← v.text attributes text
      pure ⟨style, new?.getD text, inner, rowspan, colspan⟩

/-- The traversal of the document in a table cell, if there is one. -/
def traverseInner (attributes : Attributes) : Option Document → m (Option Document)
  | none => pure none
  | some ⟨own, blocks⟩ => do
    v.nested
    let blocks ← traverseBlocks (attributes.extend own) blocks
    pure (some ⟨own, blocks⟩)

end

/-- The traversal of a document. -/
def Document.traverse (d : Document) : m Document := do
  let blocks ← traverseBlocks v d.attributes d.blocks
  pure ⟨d.attributes, blocks⟩

end Traverse

/-! ### Spots -/

/-- A place that a traversal comes to. -/
inductive Spot where
  | math (block : MathBlock)
  | text (attributes : Attributes) (text : String)
  | nested

mutual

/-- The spots of a block. -/
def Block.spots (attributes : Attributes) : Block → List Spot
  | .math b => [.math b]
  | .prose p => if p.expandsMacros then [.text attributes p.text] else []
  | .list ⟨_, _, _, items⟩ => spotsOfItems attributes items
  | .sect ⟨_, _, title, blocks, _⟩ => .text attributes title :: spotsOfBlocks attributes blocks
  | .compound ⟨_, _, _, blocks⟩ => spotsOfBlocks attributes blocks
  | .table ⟨_, _, rows, _⟩ => spotsOfRows attributes rows
  | .image _ => []
  | .passthrough _ => []

/-- The spots of blocks. -/
def spotsOfBlocks (attributes : Attributes) : List Block → List Spot
  | [] => []
  | b :: bs => b.spots attributes ++ spotsOfBlocks attributes bs

/-- The spots of the items of a list. -/
def spotsOfItems (attributes : Attributes) : List ListItem → List Spot
  | [] => []
  | ⟨text, blocks⟩ :: items =>
    .text attributes text :: spotsOfBlocks attributes blocks ++ spotsOfItems attributes items

/-- The spots of the rows of a table. -/
def spotsOfRows (attributes : Attributes) : List TableRow → List Spot
  | [] => []
  | ⟨cells⟩ :: rows => spotsOfCells attributes cells ++ spotsOfRows attributes rows

/-- The spots of the cells of a row. -/
def spotsOfCells (attributes : Attributes) : List TableCell → List Spot
  | [] => []
  | c :: cells => c.spots attributes ++ spotsOfCells attributes cells

/-- The spots of a table cell. -/
def TableCell.spots (attributes : Attributes) : TableCell → List Spot
  | ⟨style, text, inner, _, _⟩ =>
    match style with
    | .literal => []
    | .asciiDoc => spotsOfInner attributes inner
    | _ => [.text attributes text]

/-- The spots of the document in a table cell, if there is one. -/
def spotsOfInner (attributes : Attributes) : Option Document → List Spot
  | none => []
  | some ⟨own, blocks⟩ => .nested :: spotsOfBlocks (attributes.extend own) blocks

end

/-- The spots of a document, in document order. -/
def Document.spots (d : Document) : List Spot :=
  spotsOfBlocks d.attributes d.blocks

/-! ### Related traversals -/

/-- A relation of effects that running one after the other respects. -/
structure EffectRelation (m n : Type → Type) [Monad m] [Monad n] where
  /-- The relation. -/
  rel : ∀ {α : Type}, m α → n α → Prop
  pure : ∀ {α : Type} (a : α), rel (Pure.pure a) (Pure.pure a)
  bind : ∀ {α β : Type} {x : m α} {y : n α} {f : α → m β} {g : α → n β}, rel x y →
    (∀ a, rel (f a) (g a)) → rel (x >>= f) (y >>= g)

namespace EffectRelation

variable {m n : Type → Type} [Monad m] [Monad n] (R : EffectRelation m n) {α β : Type}

theorem map [LawfulMonad m] [LawfulMonad n] {x : m α} {y : n α} (f : α → β) (h : R.rel x y) :
    R.rel (f <$> x) (f <$> y) := by
  rw [← bind_pure_comp, ← bind_pure_comp]
  exact R.bind h fun a ↦ R.pure (f a)

/-- A step that is related to doing nothing may come first. -/
theorem bind_of_unit [LawfulMonad n] {x : m Unit} {f : Unit → m α} {y : n α}
    (hx : R.rel x (Pure.pure ())) (hf : R.rel (f ()) y) : R.rel (x >>= f) y := by
  rw [← pure_bind () fun _ ↦ y]
  exact R.bind hx fun _ ↦ hf

theorem mapM [LawfulMonad m] [LawfulMonad n] {f : α → m β} {g : α → n β} {xs : List α}
    (h : ∀ x ∈ xs, R.rel (f x) (g x)) : R.rel (xs.mapM f) (xs.mapM g) := by
  induction xs with
  | nil => exact R.pure []
  | cons x xs ih =>
    rw [List.forall_mem_cons] at h
    rw [List.mapM_cons, List.mapM_cons]
    exact R.bind h.1 fun y ↦ R.bind (ih h.2) fun ys ↦ R.pure (y :: ys)

theorem forM {f : α → m PUnit} {g : α → n PUnit} {xs : List α}
    (h : ∀ x ∈ xs, R.rel (f x) (g x)) : R.rel (xs.forM f) (xs.forM g) := by
  induction xs with
  | nil => exact R.pure PUnit.unit
  | cons x xs ih =>
    rw [List.forall_mem_cons] at h
    exact R.bind h.1 fun _ ↦ ih h.2

end EffectRelation

section Related

variable {m n : Type → Type} [Monad m] [Monad n] (R : EffectRelation m n) {v : Visitor m}
  {w : Visitor n}

/-- Two visitors do related things at a spot. -/
def Spot.Related (v : Visitor m) (w : Visitor n) : Spot → Prop
  | .math b => R.rel (v.math b) (w.math b)
  | .text attributes t => R.rel (v.text attributes t) (w.text attributes t)
  | .nested => R.rel v.nested w.nested

mutual

theorem Block.traverse_related (attributes : Attributes) : ∀ b : Block,
    (∀ x ∈ b.spots attributes, x.Related R v w) →
      R.rel (b.traverse v attributes) (b.traverse w attributes)
  | .math b => fun h ↦ h _ (List.mem_singleton_self _)
  | .prose p => by
    intro h
    simp only [Block.traverse, Block.spots] at h ⊢
    split
    · next hp =>
      rw [if_pos hp] at h
      exact R.bind (h _ (List.mem_singleton_self _)) fun _ ↦ R.pure _
    · exact R.pure _
  | .list ⟨_, _, _, items⟩ => fun h ↦
    R.bind (traverseItems_related attributes items h) fun _ ↦ R.pure _
  | .sect ⟨_, _, _, blocks, _⟩ => fun h ↦
    R.bind (h _ List.mem_cons_self) fun _ ↦
      R.bind (traverseBlocks_related attributes blocks fun x hx ↦ h x (List.mem_cons_of_mem _ hx))
        fun _ ↦ R.pure _
  | .compound ⟨_, _, _, blocks⟩ => fun h ↦
    R.bind (traverseBlocks_related attributes blocks h) fun _ ↦ R.pure _
  | .table ⟨_, _, rows, _⟩ => fun h ↦
    R.bind (traverseRows_related attributes rows h) fun _ ↦ R.pure _
  | .image _ => fun _ ↦ R.pure _
  | .passthrough _ => fun _ ↦ R.pure _

theorem traverseBlocks_related (attributes : Attributes) : ∀ bs : List Block,
    (∀ x ∈ spotsOfBlocks attributes bs, x.Related R v w) →
      R.rel (traverseBlocks v attributes bs) (traverseBlocks w attributes bs)
  | [] => fun _ ↦ R.pure _
  | b :: bs => fun h ↦
    R.bind (b.traverse_related attributes fun x hx ↦ h x (List.mem_append_left _ hx)) fun _ ↦
      R.bind (traverseBlocks_related attributes bs fun x hx ↦ h x (List.mem_append_right _ hx))
        fun _ ↦ R.pure _

theorem traverseItems_related (attributes : Attributes) : ∀ items : List ListItem,
    (∀ x ∈ spotsOfItems attributes items, x.Related R v w) →
      R.rel (traverseItems v attributes items) (traverseItems w attributes items)
  | [] => fun _ ↦ R.pure _
  | ⟨_, blocks⟩ :: items => by
    intro h
    rw [spotsOfItems, List.cons_append, List.forall_mem_cons, List.forall_mem_append] at h
    refine R.bind h.1 fun _ ↦ ?_
    refine R.bind (traverseBlocks_related attributes blocks h.2.1) fun _ ↦ ?_
    exact R.bind (traverseItems_related attributes items h.2.2) fun _ ↦ R.pure _

theorem traverseRows_related (attributes : Attributes) : ∀ rows : List TableRow,
    (∀ x ∈ spotsOfRows attributes rows, x.Related R v w) →
      R.rel (traverseRows v attributes rows) (traverseRows w attributes rows)
  | [] => fun _ ↦ R.pure _
  | ⟨cells⟩ :: rows => fun h ↦
    R.bind (traverseCells_related attributes cells fun x hx ↦ h x (List.mem_append_left _ hx))
      fun _ ↦
        R.bind (traverseRows_related attributes rows fun x hx ↦ h x (List.mem_append_right _ hx))
          fun _ ↦ R.pure _

theorem traverseCells_related (attributes : Attributes) : ∀ cells : List TableCell,
    (∀ x ∈ spotsOfCells attributes cells, x.Related R v w) →
      R.rel (traverseCells v attributes cells) (traverseCells w attributes cells)
  | [] => fun _ ↦ R.pure _
  | c :: cells => fun h ↦
    R.bind (c.traverse_related attributes fun x hx ↦ h x (List.mem_append_left _ hx)) fun _ ↦
      R.bind (traverseCells_related attributes cells fun x hx ↦ h x (List.mem_append_right _ hx))
        fun _ ↦ R.pure _

theorem TableCell.traverse_related (attributes : Attributes) : ∀ c : TableCell,
    (∀ x ∈ c.spots attributes, x.Related R v w) →
      R.rel (c.traverse v attributes) (c.traverse w attributes)
  | ⟨style, _, inner, _, _⟩ => by
    intro h
    cases style <;> simp only [TableCell.traverse, TableCell.spots] at h ⊢
    case literal => exact R.pure _
    case asciiDoc =>
      exact R.bind (traverseInner_related attributes inner h) fun _ ↦ R.pure _
    all_goals exact R.bind (h _ (List.mem_singleton_self _)) fun _ ↦ R.pure _

theorem traverseInner_related (attributes : Attributes) : ∀ inner : Option Document,
    (∀ x ∈ spotsOfInner attributes inner, x.Related R v w) →
      R.rel (traverseInner v attributes inner) (traverseInner w attributes inner)
  | none => fun _ ↦ R.pure _
  | some ⟨own, blocks⟩ => fun h ↦
    R.bind (h _ List.mem_cons_self) fun _ ↦
      R.bind (traverseBlocks_related (attributes.extend own) blocks
        fun x hx ↦ h x (List.mem_cons_of_mem _ hx)) fun _ ↦ R.pure _

end

/-- Traversals are related when their visitors are related at the spots of the document. -/
theorem Document.traverse_related (d : Document) (h : ∀ x ∈ d.spots, x.Related R v w) :
    R.rel (d.traverse v) (d.traverse w) :=
  R.bind (traverseBlocks_related R d.attributes d.blocks h) fun _ ↦ R.pure _

end Related

end DocumentMath
