import DocumentMath.Document.Nested
import Mathlib.Data.List.Infix

/-!
# Subtrees and changes of them

A document, with the documents in its cells, is one tree. Its subtrees are the documents in it and
their nodes, and a move leads from a subtree to one right below it: a step to a child, or the entry
into the document in a cell. So one list of moves leads to any subtree, however deep.

`Subtree.Changed` says that a tree has another subtree where moves lead. What a change leaves alone
is told by the laws of a single move: what is put somewhere is there (`child?_setChild?_self`), and
it is nowhere else (`child?_setChild?_ne`). Along a list of moves they give the main statement,
`Subtree.Changed.rel_descend?`: only what is around the change differs, and it differs by a child.
-/

namespace DocumentMath

/-- A document or a node of one. -/
inductive Subtree where
  | document (d : Document)
  | node (n : Node)

/-- A move to a subtree right below. -/
inductive Move where
  /-- To a child of a node, or to a block of a document. -/
  | step (s : Step)
  /-- To the document in a cell. -/
  | enter
  deriving DecidableEq

namespace Subtree

/-- The document that a subtree is. -/
def document? : Subtree → Option Document
  | document d => some d
  | node _ => none

/-- The node that a subtree is. -/
def node? : Subtree → Option Node
  | document _ => none
  | node n => some n

/-- The subtree that a move leads to. -/
def child? : Subtree → Move → Option Subtree
  | document d, .step (.block index) => d.blocks[index]?.map fun b ↦ node (.block b)
  | node n, .step s => (n.child? s).map node
  | node n, .enter => n.inner?.map document
  | _, _ => none

/-- The tree with another subtree where a move leads to one. It has to be of the same sort. -/
def setChild? : Subtree → Move → Subtree → Option Subtree
  | document d, .step (.block index), node (.block b) =>
    some (document { d with blocks := d.blocks.set index b })
  | node n, .step s, node c => (n.setChild? s c).map node
  | node n, .enter, document d => (n.setInner? d).map node
  | _, _, _ => none

/-- The subtree that moves lead to. -/
def descend? : Subtree → List Move → Option Subtree
  | t, [] => some t
  | t, x :: moves => (t.child? x).bind (·.descend? moves)

/-- The tree with a change at the subtree that moves lead to. -/
def update? (change : Subtree → Option Subtree) : Subtree → List Move → Option Subtree
  | t, [] => change t
  | t, x :: moves => do
    let c ← t.child? x
    let changed ← c.update? change moves
    t.setChild? x changed

end Subtree

/-- Whether two nodes can stand in each other's place. -/
def Node.SameSort : Node → Node → Prop
  | block _, block _ => True
  | item _, item _ => True
  | cell _, cell _ => True
  | _, _ => False

namespace Subtree

/-- Whether two subtrees can stand in each other's place. -/
def SameSort : Subtree → Subtree → Prop
  | document _, document _ => True
  | node n, node m => n.SameSort m
  | _, _ => False

/-! ### Single moves -/

/-- What a move leads to, by what it starts from. -/
inductive IsChild : Subtree → Move → Subtree → Prop
  | block {attributes : Attributes} {blocks : List Block} {index : Nat} {b : Block}
    (h : blocks[index]? = some b) :
    IsChild (document ⟨attributes, blocks⟩) (.step (.block index)) (node (.block b))
  | blockOfSection {id converted : Option String} {level : UInt8} {title : String}
    {blocks : List Block} {index : Nat} {b : Block} (h : blocks[index]? = some b) :
    IsChild (node (.block (.sect ⟨id, level, title, blocks, converted⟩))) (.step (.block index))
      (node (.block b))
  | blockOfCompound {id title : Option String} {context : String} {blocks : List Block}
    {index : Nat} {b : Block} (h : blocks[index]? = some b) :
    IsChild (node (.block (.compound ⟨id, title, context, blocks⟩))) (.step (.block index))
      (node (.block b))
  | blockOfItem {text : String} {blocks : List Block} {index : Nat} {b : Block}
    (h : blocks[index]? = some b) :
    IsChild (node (.item ⟨text, blocks⟩)) (.step (.block index)) (node (.block b))
  | item {id title : Option String} {style : ListStyle} {items : List ListItem} {index : Nat}
    {i : ListItem} (h : items[index]? = some i) :
    IsChild (node (.block (.list ⟨id, title, style, items⟩))) (.step (.item index))
      (node (.item i))
  | cell {id title : Option String} {rows : List TableRow} {headerRows : UInt8}
    {row column : Nat} {cells : List TableCell} {c : TableCell}
    (hrow : rows[row]? = some ⟨cells⟩) (hcell : cells[column]? = some c) :
    IsChild (node (.block (.table ⟨id, title, rows, headerRows⟩))) (.step (.cell row column))
      (node (.cell c))
  | inner {style : CellStyle} {text : String} {rowspan colspan : UInt8} {d : Document} :
    IsChild (node (.cell ⟨style, text, some d, rowspan, colspan⟩)) .enter (document d)

section Moves

variable {t t' c c' : Subtree} {x y : Move}

theorem child?_of_isChild (h : IsChild t x c) : t.child? x = some c := by
  cases h <;> simp [child?, Node.child?, Block.children?, Node.inner?, *]

theorem isChild_of_child?_node {n m : Node} {s : Step} (h : n.child? s = some m) :
    IsChild (node n) (.step s) (node m) := by
  unfold Node.child? at h
  split at h
  · next l _ =>
    obtain ⟨i, hi, rfl⟩ := Option.map_eq_some_iff.mp h
    cases l
    exact .item hi
  · next t _ _ =>
    obtain ⟨⟨cells⟩, hr, h⟩ := Option.bind_eq_some_iff.mp h
    obtain ⟨c, hc, h⟩ := Option.bind_eq_some_iff.mp h
    cases h
    cases t
    exact .cell hr hc
  · next b _ =>
    obtain ⟨children, hchildren, h⟩ := Option.bind_eq_some_iff.mp h
    obtain ⟨child, hchild, h⟩ := Option.bind_eq_some_iff.mp h
    cases h
    cases b with
    | sect s =>
      cases s
      cases hchildren
      exact .blockOfSection hchild
    | compound c =>
      cases c
      cases hchildren
      exact .blockOfCompound hchild
    | _ => cases hchildren
  · next i _ =>
    obtain ⟨b, hb, rfl⟩ := Option.map_eq_some_iff.mp h
    cases i
    exact .blockOfItem hb
  · cases h

theorem isChild_of_child? (h : t.child? x = some c) : IsChild t x c := by
  unfold child? at h
  split at h
  · next d _ =>
    obtain ⟨b, hb, rfl⟩ := Option.map_eq_some_iff.mp h
    cases d
    exact .block hb
  · obtain ⟨m, hm, rfl⟩ := Option.map_eq_some_iff.mp h
    exact isChild_of_child?_node hm
  · next n =>
    obtain ⟨d, hd, rfl⟩ := Option.map_eq_some_iff.mp h
    cases n with
    | cell c =>
      cases c
      cases hd
      exact .inner
    | _ => cases hd
  · cases h

/-- A subtree of the same sort can be put in the place of another. -/
theorem exists_setChild? (h : IsChild t x c) (hsort : SameSort c c') :
    ∃ t', t.setChild? x c' = some t' := by
  cases h <;> obtain ⟨d⟩ | ⟨b | i | c⟩ := c' <;> first | exact hsort.elim | exact ⟨_, rfl⟩

theorem sameSort_setChild? (h : IsChild t x c) (hset : t.setChild? x c' = some t') :
    SameSort t t' := by
  cases h <;> obtain ⟨d⟩ | ⟨b | i | c⟩ := c' <;> cases hset <;> trivial

/-- What is put somewhere is there. -/
theorem child?_setChild?_self (h : IsChild t x c) (hset : t.setChild? x c' = some t') :
    t'.child? x = some c' := by
  cases h <;> obtain ⟨d⟩ | ⟨b | i | c⟩ := c' <;> cases hset <;>
    simp [child?, Node.child?, Block.children?, Node.inner?, List.getElem?_set_self', *]

/-- What is put somewhere is nowhere else. -/
theorem child?_setChild?_ne (h : IsChild t x c) (hset : t.setChild? x c' = some t')
    (hne : y ≠ x) : t'.child? y = t.child? y := by
  cases h <;> obtain ⟨d⟩ | ⟨b | i | c⟩ := c' <;> cases hset <;>
    obtain ⟨j | j | ⟨j, k⟩⟩ | _ := y <;>
      simp [child?, Node.child?, Block.children?, Node.inner?] at hne ⊢
  -- the other cell may be in the same row or in another one
  case cell.node.cell.refl.step.cell row column cells _ hrow _ =>
    by_cases hj : j = row
    · subst hj
      simp [hrow, List.getElem?_set_ne (Ne.symm (hne rfl))]
    · rw [List.getElem?_modify_ne _ _ (Ne.symm hj)]
  all_goals rw [List.getElem?_set_ne (Ne.symm hne)]

theorem set_of_getElem? {α : Type} {xs : List α} {index : Nat} {a : α} (h : xs[index]? = some a) :
    xs.set index a = xs := by
  obtain ⟨hlt, rfl⟩ := List.getElem?_eq_some_iff.mp h
  exact List.set_getElem_self hlt

theorem modify_of_getElem? {α : Type} {xs : List α} {index : Nat} {a : α} {f : α → α}
    (h : xs[index]? = some a) (hf : f a = a) : xs.modify index f = xs := by
  rw [List.modify_eq_set_getElem?, h, Option.map_eq_map, Option.map_some, Option.getD_some, hf,
    set_of_getElem? h]

/-- To put back what is there changes nothing. -/
theorem setChild?_child? (h : IsChild t x c) : t.setChild? x c = some t := by
  cases h with
  | cell hrow hcell =>
    simp [setChild?, Node.setChild?, modify_of_getElem? hrow, set_of_getElem? hcell]
  | inner => rfl
  | _ hchild =>
    simp [setChild?, Node.setChild?, Block.children?, Block.setChildren?, set_of_getElem? hchild]

end Moves

/-! ### The number of blocks -/

/-- The number of blocks in a subtree; documents in table cells do not count. -/
def count : Subtree → Nat
  | document d => d.totalBlocks
  | node (.block b) => b.count
  | node (.item i) => countBlocks i.blocks
  | node (.cell _) => 0

section Count

variable {t t' c c' : Subtree} {x : Move}

theorem countBlocks_set {blocks : List Block} {index : Nat} {b : Block}
    (h : blocks[index]? = some b) (b' : Block) :
    countBlocks (blocks.set index b') + b.count = countBlocks blocks + b'.count := by
  induction blocks generalizing index with
  | nil => cases h
  | cons first blocks ih =>
    cases index with
    | zero =>
      cases h
      simp only [List.set_cons_zero, countBlocks]
      omega
    | succ index =>
      have hrest := ih h
      simp only [List.set_cons_succ, countBlocks]
      omega

theorem countInItems_set {items : List ListItem} {index : Nat} {i : ListItem}
    (h : items[index]? = some i) (i' : ListItem) :
    countInItems (items.set index i') + countBlocks i.blocks
      = countInItems items + countBlocks i'.blocks := by
  induction items generalizing index with
  | nil => cases h
  | cons first items ih =>
    cases first
    cases index with
    | zero =>
      cases h
      cases i'
      simp only [List.set_cons_zero, countInItems]
      omega
    | succ index =>
      have hrest := ih h
      simp only [List.set_cons_succ, countInItems]
      omega

/-- What is put at a step is counted in the place of what was there. -/
theorem count_setChild?_step {s : Step} (h : IsChild t (.step s) c)
    (hset : t.setChild? (.step s) c' = some t') : t'.count + c.count = t.count + c'.count := by
  cases h <;> obtain ⟨d⟩ | ⟨b' | i' | c⟩ := c' <;> cases hset
  case cell => rfl
  case item.node.item h =>
    have hitems := countInItems_set h i'
    simp only [count, Block.count]
    omega
  all_goals
    next h =>
      have hblocks := countBlocks_set h b'
      simp only [count, Block.count, Document.totalBlocks]
      omega

theorem count_setChild? (h : IsChild t x c) (hset : t.setChild? x c' = some t')
    (hcount : c'.count = c.count) : t'.count = t.count := by
  cases x with
  | step s =>
    have hadd := count_setChild?_step h hset
    omega
  | enter =>
    cases h
    obtain ⟨d⟩ | n := c' <;> cases hset
    rfl

end Count

/-! ### Changes -/

/-- The second tree is the first one with `m'` in the place of the `m` that moves lead to. -/
inductive Changed (m m' : Subtree) : List Move → Subtree → Subtree → Prop
  | here : Changed m m' [] m m'
  | there {x : Move} {moves : List Move} {t t' c c' : Subtree} (hchild : IsChild t x c)
    (hset : t.setChild? x c' = some t') (h : Changed m m' moves c c') :
    Changed m m' (x :: moves) t t'

section Changes

variable {t t' m m' : Subtree} {moves others : List Move} {f : Subtree → Option Subtree}

theorem descend?_append (t : Subtree) (moves others : List Move) :
    t.descend? (moves ++ others) = (t.descend? moves).bind (·.descend? others) := by
  induction moves generalizing t with
  | nil => rfl
  | cons x moves ih => simp only [List.cons_append, descend?, ih, Option.bind_assoc]

theorem update?_append (change : Subtree → Option Subtree) (t : Subtree)
    (moves others : List Move) :
    t.update? change (moves ++ others) = t.update? (·.update? change others) moves := by
  induction moves generalizing t with
  | nil => rfl
  | cons x moves ih => simp only [List.cons_append, update?, ih]

/-- To put back what is there is a change, too. -/
theorem changed_self (h : t.descend? moves = some m) : Changed m m moves t t := by
  induction moves generalizing t with
  | nil =>
    cases h
    exact .here
  | cons x moves ih =>
    obtain ⟨c, hc, h⟩ := Option.bind_eq_some_iff.mp h
    have hchild := isChild_of_child? hc
    exact .there hchild (setChild?_child? hchild) (ih h)

namespace Changed

theorem update?_eq (h : Changed m m' moves t t') (hf : f m = some m') :
    t.update? f moves = some t' := by
  induction h with
  | here => exact hf
  | there hchild hset h ih => simp [update?, child?_of_isChild hchild, ih, hset]

theorem before (h : Changed m m' moves t t') : t.descend? moves = some m := by
  induction h with
  | here => rfl
  | there hchild hset h ih => rw [descend?, child?_of_isChild hchild, Option.bind_some, ih]

theorem after (h : Changed m m' moves t t') : t'.descend? moves = some m' := by
  induction h with
  | here => rfl
  | there hchild hset h ih =>
    rw [descend?, child?_setChild?_self hchild hset, Option.bind_some, ih]

theorem sameSort (h : Changed m m' moves t t') (hsort : SameSort m m') : SameSort t t' := by
  cases h with
  | here => exact hsort
  | there hchild hset h => exact sameSort_setChild? hchild hset

/-- A change relates what moves lead to before it to what they lead to after it, in whatever way it
relates the subtrees it exchanges and those around them. -/
theorem rel_descend? {R : Subtree → Subtree → Prop} (hrefl : ∀ t, R t t)
    (h : Changed m m' moves t t') (hbelow : ∀ x, m'.child? x = m.child? x)
    (hself : others = moves → R m m')
    (haround : ∀ x after, moves = others ++ x :: after → ∀ {s c c' s' : Subtree},
      t.descend? others = some s → IsChild s x c → s.setChild? x c' = some s' → R s s') :
    Option.Rel R (t.descend? others) (t'.descend? others) := by
  have hsame : ∀ s? : Option Subtree, Option.Rel R s? s? := by
    rintro (_ | s)
    · exact .none
    · exact .some (hrefl s)
  -- the induction follows the way to the change, as long as the other moves go along with it
  induction h generalizing others with
  | here =>
    cases others with
    | nil => exact .some (hself rfl)
    | cons y others =>
      rw [descend?, descend?, hbelow]
      exact hsame _
  | @there x moves t t' c c' hchild hset h ih =>
    cases others with
    | nil => exact .some (haround x moves rfl rfl hchild hset)
    | cons y others =>
      -- the first move goes on towards the change, or leads to a part of the tree beside it
      by_cases hy : y = x
      · subst hy
        rw [descend?, descend?, child?_of_isChild hchild, child?_setChild?_self hchild hset]
        refine ih (fun heq ↦ hself (congrArg _ heq)) fun z after hmoves s _ _ _ hs ↦ ?_
        refine haround z after (congrArg _ hmoves) ?_
        rw [descend?, child?_of_isChild hchild]
        exact hs
      · rw [descend?, descend?, child?_setChild?_ne hchild hset hy]
        exact hsame _

/-- Where the way to the change does not pass, everything is as it was. -/
theorem descend?_eq (h : Changed m m' moves t t') (hbelow : ∀ x, m'.child? x = m.child? x)
    (hapart : ¬others <+: moves) : t'.descend? others = t.descend? others := by
  have hrel := h.rel_descend? (fun _ ↦ rfl) hbelow
    (fun heq ↦ absurd (heq ▸ List.prefix_refl _) hapart)
    fun x after hmoves ↦ absurd ⟨x :: after, hmoves.symm⟩ hapart
  generalize t.descend? others = s?, t'.descend? others = s'? at hrel ⊢
  cases hrel with
  | some heq => rw [heq]
  | none => rfl

theorem count_eq (h : Changed m m' moves t t') (hcount : m'.count = m.count) :
    t'.count = t.count := by
  induction h with
  | here => exact hcount
  | there hchild hset h ih => exact count_setChild? hchild hset ih

/-- Below steps only, what is exchanged is counted in the place of what was there. -/
theorem count_add {steps : List Step} (h : Changed m m' (steps.map .step) t t') :
    t'.count + m.count = t.count + m'.count := by
  induction steps generalizing t t' with
  | nil =>
    cases h
    exact Nat.add_comm _ _
  | cons s steps ih =>
    cases h with
    | there hchild hset h =>
      have hstep := count_setChild?_step hchild hset
      have hbelow := ih h
      omega

/-- A change of a tree is a change of each subtree on the way. -/
theorem of_append (h : Changed m m' (moves ++ others) t t') :
    ∃ s s', t.descend? moves = some s ∧ t'.descend? moves = some s' ∧
      Changed m m' others s s' := by
  induction moves generalizing t t' with
  | nil => exact ⟨t, t', rfl, rfl, h⟩
  | cons x moves ih =>
    cases h with
    | there hchild hset h =>
      obtain ⟨s, s', hs, hs', hrest⟩ := ih h
      refine ⟨s, s', ?_, ?_, hrest⟩
      · rw [descend?, child?_of_isChild hchild, Option.bind_some, hs]
      · rw [descend?, child?_setChild?_self hchild hset, Option.bind_some, hs']

end Changed

/-- A subtree can be changed into any other of its sort. -/
theorem exists_changed (h : t.descend? moves = some m) (hsort : SameSort m m') :
    ∃ t', Changed m m' moves t t' := by
  induction moves generalizing t with
  | nil =>
    cases h
    exact ⟨m', .here⟩
  | cons x moves ih =>
    obtain ⟨c, hc, h⟩ := Option.bind_eq_some_iff.mp h
    have hchild := isChild_of_child? hc
    obtain ⟨c', hchanged⟩ := ih h
    obtain ⟨t', hset⟩ := exists_setChild? hchild (hchanged.sameSort hsort)
    exact ⟨t', .there hchild hset hchanged⟩

end Changes

end Subtree

end DocumentMath
