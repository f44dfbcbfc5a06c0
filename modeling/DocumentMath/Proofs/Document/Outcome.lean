import DocumentMath.Proofs.Document.Traversal
import Mathlib.Data.List.Forall2
import Mathlib.Logic.Basic

/-!
# What a traversal leaves

Two facts about the document that a traversal returns. If what a visitor does at each spot leaves
only good spots there, then the whole traversal leaves only good spots (`Document.traverse_leaves`),
for each way of speaking about results that `pure` and `bind` respect (`EffectRule`). And a visitor
that changes nothing leaves the document as it is (`Document.traverse_identity`).
-/

namespace DocumentMath

/-! ### Good spots -/

/-- A way of saying that the results of effects have a property. What is known of the result of one
effect may be used for the effects that follow. -/
structure EffectRule (m : Type → Type) [Monad m] where
  /-- The results have the property. -/
  holds : ∀ {α : Type}, m α → (α → Prop) → Prop
  pure : ∀ {α : Type} {a : α} {Q : α → Prop}, Q a → holds (Pure.pure a) Q
  bind : ∀ {α β : Type} {x : m α} {f : α → m β} {Q : α → Prop} {S : β → Prop}, holds x Q →
    (∀ a, holds (f a) fun b ↦ Q a → S b) → holds (x >>= f) S
  mono : ∀ {α : Type} {x : m α} {Q S : α → Prop}, holds x Q → (∀ a, Q a → S a) → holds x S

theorem forall_mem_of_forall₂ {α β : Type} {Q : β → Prop} {xs : List α} {ys : List β}
    (h : List.Forall₂ (fun _ y ↦ Q y) xs ys) : ∀ y ∈ ys, Q y := by
  induction h with
  | nil => exact List.forall_mem_nil _
  | cons hy _ ih => exact List.forall_mem_cons.mpr ⟨hy, ih⟩

namespace EffectRule

variable {m : Type → Type} [Monad m] [LawfulMonad m] (R : EffectRule m) {α β : Type}

theorem map {x : m α} {f : α → β} {Q : α → Prop} {S : β → Prop} (h : R.holds x Q)
    (hf : ∀ a, Q a → S (f a)) : R.holds (f <$> x) S := by
  rw [← bind_pure_comp]
  exact R.bind h fun a ↦ R.pure (hf a)

/-- What holds of the result for each member of a list holds of the results one by one. -/
theorem mapM_forall₂ {f : α → m β} {Q : α → β → Prop} {xs : List α}
    (h : ∀ x ∈ xs, R.holds (f x) (Q x)) : R.holds (xs.mapM f) (List.Forall₂ Q xs) := by
  induction xs with
  | nil => exact R.pure .nil
  | cons x xs ih =>
    rw [List.forall_mem_cons] at h
    rw [List.mapM_cons]
    exact R.bind h.1 fun y ↦ R.bind (ih h.2) fun ys ↦ R.pure fun hys hy ↦ .cons hy hys

/-- What holds of the result for every member of a list holds of all results. -/
theorem mapM {f : α → m β} {Q : β → Prop} {xs : List α} (h : ∀ x ∈ xs, R.holds (f x) Q) :
    R.holds (xs.mapM f) fun ys ↦ ys.length = xs.length ∧ ∀ y ∈ ys, Q y :=
  R.mono (R.mapM_forall₂ h) fun _ hys ↦ ⟨hys.length_eq.symm, forall_mem_of_forall₂ hys⟩

end EffectRule

section Leaves

variable {m : Type → Type} [Monad m] (R : EffectRule m) {v : Visitor m} {good : Spot → Prop}

/-- What is done at a spot leaves only good spots there. -/
def Spot.Leaves (v : Visitor m) (good : Spot → Prop) : Spot → Prop
  | .math b => R.holds (v.math b) fun b' ↦ ∀ attributes, ∀ x ∈ b'.spots attributes, good x
  | .text attributes t => R.holds (v.text attributes t) fun new? ↦
      good (.text attributes (new?.getD t))
  | .nested => R.holds v.nested fun _ ↦ good .nested

mutual

theorem Block.traverse_leaves (attributes : Attributes) : ∀ b : Block,
    (∀ x ∈ b.spots attributes, x.Leaves R v good) →
      R.holds (b.traverse v attributes) fun b' ↦ ∀ x ∈ b'.spots attributes, good x
  | .math _ => fun h ↦ R.mono (h _ (List.mem_singleton_self _)) fun _ hgood ↦ hgood attributes
  | .prose p => by
    intro h
    rw [Block.spots] at h
    rw [Block.traverse]
    split
    · next hp =>
      rw [if_pos hp] at h
      refine R.bind (h _ (List.mem_singleton_self _)) fun new? ↦ R.pure fun hnew ↦ ?_
      rw [Block.spots, Prose.expandsMacros_edited, if_pos hp, Prose.text_edited]
      exact List.forall_mem_singleton.mpr hnew
    · next hp =>
      refine R.pure ?_
      rw [Block.spots, if_neg hp]
      exact List.forall_mem_nil _
  | .list ⟨_, _, _, items⟩ => fun h ↦
    R.bind (traverseItems_leaves attributes items h) fun _ ↦ R.pure id
  | .sect ⟨id, level, title, blocks, converted⟩ => by
    intro h
    rw [Block.spots, List.forall_mem_cons] at h
    refine R.bind h.1 fun new? ↦ ?_
    refine R.bind (traverseBlocks_leaves attributes blocks h.2) fun bs ↦
      R.pure fun hblocks hnew ↦ ?_
    obtain ⟨converted', hedited⟩ := Section.edited_eq new? id level title converted
    rw [hedited, Block.spots, List.forall_mem_cons]
    exact ⟨hnew, hblocks⟩
  | .compound ⟨_, _, _, blocks⟩ => fun h ↦
    R.bind (traverseBlocks_leaves attributes blocks h) fun _ ↦ R.pure id
  | .table ⟨_, _, rows, _⟩ => fun h ↦
    R.bind (traverseRows_leaves attributes rows h) fun _ ↦ R.pure id
  | .image _ => fun _ ↦ R.pure (List.forall_mem_nil _)
  | .passthrough _ => fun _ ↦ R.pure (List.forall_mem_nil _)

theorem traverseBlocks_leaves (attributes : Attributes) : ∀ bs : List Block,
    (∀ x ∈ spotsOfBlocks attributes bs, x.Leaves R v good) →
      R.holds (traverseBlocks v attributes bs) fun bs' ↦
        ∀ x ∈ spotsOfBlocks attributes bs', good x
  | [] => fun _ ↦ R.pure (List.forall_mem_nil _)
  | b :: bs => by
    intro h
    rw [spotsOfBlocks, List.forall_mem_append] at h
    refine R.bind (b.traverse_leaves attributes h.1) fun b' ↦ ?_
    refine R.bind (traverseBlocks_leaves attributes bs h.2) fun bs' ↦ R.pure fun hbs hb ↦ ?_
    rw [spotsOfBlocks, List.forall_mem_append]
    exact ⟨hb, hbs⟩

theorem traverseItems_leaves (attributes : Attributes) : ∀ items : List ListItem,
    (∀ x ∈ spotsOfItems attributes items, x.Leaves R v good) →
      R.holds (traverseItems v attributes items) fun items' ↦
        ∀ x ∈ spotsOfItems attributes items', good x
  | [] => fun _ ↦ R.pure (List.forall_mem_nil _)
  | ⟨_, blocks⟩ :: items => by
    intro h
    rw [spotsOfItems, List.cons_append, List.forall_mem_cons, List.forall_mem_append] at h
    refine R.bind h.1 fun new? ↦ ?_
    refine R.bind (traverseBlocks_leaves attributes blocks h.2.1) fun bs ↦ ?_
    refine R.bind (traverseItems_leaves attributes items h.2.2) fun items' ↦
      R.pure fun hitems hblocks hnew ↦ ?_
    rw [spotsOfItems, List.cons_append, List.forall_mem_cons, List.forall_mem_append]
    exact ⟨hnew, hblocks, hitems⟩

theorem traverseRows_leaves (attributes : Attributes) : ∀ rows : List TableRow,
    (∀ x ∈ spotsOfRows attributes rows, x.Leaves R v good) →
      R.holds (traverseRows v attributes rows) fun rows' ↦
        ∀ x ∈ spotsOfRows attributes rows', good x
  | [] => fun _ ↦ R.pure (List.forall_mem_nil _)
  | ⟨cells⟩ :: rows => by
    intro h
    rw [spotsOfRows, List.forall_mem_append] at h
    refine R.bind (traverseCells_leaves attributes cells h.1) fun cells' ↦ ?_
    refine R.bind (traverseRows_leaves attributes rows h.2) fun rows' ↦
      R.pure fun hrows hcells ↦ ?_
    rw [spotsOfRows, List.forall_mem_append]
    exact ⟨hcells, hrows⟩

theorem traverseCells_leaves (attributes : Attributes) : ∀ cells : List TableCell,
    (∀ x ∈ spotsOfCells attributes cells, x.Leaves R v good) →
      R.holds (traverseCells v attributes cells) fun cells' ↦
        ∀ x ∈ spotsOfCells attributes cells', good x
  | [] => fun _ ↦ R.pure (List.forall_mem_nil _)
  | c :: cells => by
    intro h
    rw [spotsOfCells, List.forall_mem_append] at h
    refine R.bind (c.traverse_leaves attributes h.1) fun c' ↦ ?_
    refine R.bind (traverseCells_leaves attributes cells h.2) fun cells' ↦
      R.pure fun hcells hc ↦ ?_
    rw [spotsOfCells, List.forall_mem_append]
    exact ⟨hc, hcells⟩

theorem TableCell.traverse_leaves (attributes : Attributes) : ∀ c : TableCell,
    (∀ x ∈ c.spots attributes, x.Leaves R v good) →
      R.holds (c.traverse v attributes) fun c' ↦ ∀ x ∈ c'.spots attributes, good x
  | ⟨style, _, inner, _, _⟩ => by
    intro h
    cases style <;> simp only [TableCell.traverse, TableCell.spots] at h ⊢
    case literal => exact R.pure (List.forall_mem_nil _)
    case asciiDoc => exact R.bind (traverseInner_leaves attributes inner h) fun _ ↦ R.pure id
    all_goals
      refine R.bind (h _ (List.mem_singleton_self _)) fun new? ↦ R.pure fun hnew ↦ ?_
      exact List.forall_mem_singleton.mpr hnew

theorem traverseInner_leaves (attributes : Attributes) : ∀ inner : Option Document,
    (∀ x ∈ spotsOfInner attributes inner, x.Leaves R v good) →
      R.holds (traverseInner v attributes inner) fun inner' ↦
        ∀ x ∈ spotsOfInner attributes inner', good x
  | none => fun _ ↦ R.pure (List.forall_mem_nil _)
  | some ⟨own, blocks⟩ => by
    intro h
    rw [spotsOfInner, List.forall_mem_cons] at h
    refine R.bind h.1 fun _ ↦ ?_
    refine R.bind (traverseBlocks_leaves (attributes.extend own) blocks h.2) fun bs ↦
      R.pure fun hblocks hnested ↦ ?_
    rw [spotsOfInner, List.forall_mem_cons]
    exact ⟨hnested, hblocks⟩

end

/-- A traversal that leaves only good spots at each spot leaves only good spots. -/
theorem Document.traverse_leaves (d : Document) (h : ∀ x ∈ d.spots, x.Leaves R v good) :
    R.holds (d.traverse v) fun d' ↦ ∀ x ∈ d'.spots, good x :=
  R.bind (traverseBlocks_leaves R d.attributes d.blocks h) fun _ ↦ R.pure id

end Leaves

/-! ### Nothing changed -/

/-- Changes nothing. -/
def Visitor.identity : Visitor Id where
  math b := .math b
  text _ _ := none
  nested := ()

mutual

theorem Block.traverse_identity (attributes : Attributes) : ∀ b : Block,
    (b.traverse .identity attributes).run = b
  | .math _ => rfl
  | .prose p => by
    rw [Block.traverse]
    split <;> rfl
  | .list ⟨id, title, style, items⟩ =>
    congrArg (fun items ↦ Block.list ⟨id, title, style, items⟩)
      (traverseItems_identity attributes items)
  | .sect ⟨id, level, title, blocks, converted⟩ =>
    congrArg (fun blocks ↦ Block.sect ⟨id, level, title, blocks, converted⟩)
      (traverseBlocks_identity attributes blocks)
  | .compound ⟨id, title, context, blocks⟩ =>
    congrArg (fun blocks ↦ Block.compound ⟨id, title, context, blocks⟩)
      (traverseBlocks_identity attributes blocks)
  | .table ⟨id, title, rows, headerRows⟩ =>
    congrArg (fun rows ↦ Block.table ⟨id, title, rows, headerRows⟩)
      (traverseRows_identity attributes rows)
  | .image _ => rfl
  | .passthrough _ => rfl

theorem traverseBlocks_identity (attributes : Attributes) : ∀ bs : List Block,
    (traverseBlocks .identity attributes bs).run = bs
  | [] => rfl
  | b :: bs =>
    congrArg₂ List.cons (b.traverse_identity attributes) (traverseBlocks_identity attributes bs)

theorem traverseItems_identity (attributes : Attributes) : ∀ items : List ListItem,
    (traverseItems .identity attributes items).run = items
  | [] => rfl
  | ⟨text, blocks⟩ :: items =>
    congrArg₂ (fun blocks items ↦ ListItem.mk text blocks :: items)
      (traverseBlocks_identity attributes blocks) (traverseItems_identity attributes items)

theorem traverseRows_identity (attributes : Attributes) : ∀ rows : List TableRow,
    (traverseRows .identity attributes rows).run = rows
  | [] => rfl
  | ⟨cells⟩ :: rows =>
    congrArg₂ (fun cells rows ↦ TableRow.mk cells :: rows)
      (traverseCells_identity attributes cells) (traverseRows_identity attributes rows)

theorem traverseCells_identity (attributes : Attributes) : ∀ cells : List TableCell,
    (traverseCells .identity attributes cells).run = cells
  | [] => rfl
  | c :: cells =>
    congrArg₂ List.cons (c.traverse_identity attributes) (traverseCells_identity attributes cells)

theorem TableCell.traverse_identity (attributes : Attributes) : ∀ c : TableCell,
    (c.traverse .identity attributes).run = c
  | ⟨style, text, inner, rowspan, colspan⟩ => by
    cases style
    case asciiDoc =>
      exact congrArg (fun inner ↦ TableCell.mk .asciiDoc text inner rowspan colspan)
        (traverseInner_identity attributes inner)
    all_goals rfl

theorem traverseInner_identity (attributes : Attributes) : ∀ inner : Option Document,
    (traverseInner .identity attributes inner).run = inner
  | none => rfl
  | some ⟨own, blocks⟩ =>
    congrArg (fun blocks ↦ some (Document.mk own blocks))
      (traverseBlocks_identity (attributes.extend own) blocks)

end

/-- Nothing is changed by a visitor that changes nothing. -/
theorem Document.traverse_identity : ∀ d : Document, (d.traverse .identity).run = d
  | ⟨attributes, blocks⟩ => congrArg (Document.mk attributes)
      (traverseBlocks_identity attributes blocks)

end DocumentMath
