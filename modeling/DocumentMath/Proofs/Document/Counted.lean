import DocumentMath.Proofs.Document.InPlace
import Mathlib.Data.Set.Card

/-!
# Counting the blocks of a document

The blocks of a document are counted by walking through it, and they are found by following paths.
There are infinitely many paths, but only finitely many lead to a block, and these are as many as are
counted. A way from a node to a block starts with a step to a child, so the ways are counted child by
child (`encard_waysThrough_cons`): one way leads to the block itself, and the others go through the
members of one list (`Node.encard_waysToBlocks_of_children`), unless there are no others
(`Node.encard_waysToBlocks_of_none`). The induction on the tree has a case for each sort of block.

To exchange a block changes the number by what the new block counts more than the old one
(`Document.totalBlocks_replaceBlock`), and to set a text does not change it. The main statement is
`Document.totalBlocks_counts_paths`.
-/

namespace DocumentMath

/-! ### Ways through a list -/

/-- The steps that lead to a member of a list and go on from there by one of its ways. -/
def waysThrough {α : Type} (step : Nat → Step) (ways : α → Set (List Step)) (xs : List α) :
    Set (List Step) :=
  {steps | ∃ i x rest, xs[i]? = some x ∧ rest ∈ ways x ∧ steps = step i :: rest}

section Through

variable {α : Type} {step : Nat → Step} {ways : α → Set (List Step)}

theorem waysThrough_nil : waysThrough step ways [] = ∅ := by
  refine Set.eq_empty_of_forall_notMem ?_
  rintro _ ⟨i, x, rest, hx, -⟩
  cases hx

theorem nil_notMem_waysThrough (xs : List α) : [] ∉ waysThrough step ways xs := by
  rintro ⟨i, x, rest, -, -, h⟩
  cases h

theorem waysThrough_cons (x : α) (xs : List α) :
    waysThrough step ways (x :: xs)
      = (step 0 :: ·) '' ways x ∪ waysThrough (step ∘ Nat.succ) ways xs := by
  ext steps
  constructor
  · rintro ⟨i, y, rest, hy, hrest, rfl⟩
    cases i with
    | zero =>
      cases hy
      exact .inl ⟨rest, hrest, rfl⟩
    | succ i => exact .inr ⟨i, y, rest, hy, hrest, rfl⟩
  · rintro (⟨rest, hrest, rfl⟩ | ⟨i, y, rest, hy, hrest, rfl⟩)
    · exact ⟨0, x, rest, rfl, hrest, rfl⟩
    · exact ⟨i + 1, y, rest, hy, hrest, rfl⟩

/-- The steps to different members are different, so that no way is counted twice. -/
theorem encard_waysThrough_cons (hstep : Function.Injective step) (x : α) (xs : List α) :
    (waysThrough step ways (x :: xs)).encard
      = (ways x).encard + (waysThrough (step ∘ Nat.succ) ways xs).encard := by
  have hdisjoint : Disjoint ((step 0 :: ·) '' ways x) (waysThrough (step ∘ Nat.succ) ways xs) := by
    refine Set.disjoint_left.mpr ?_
    rintro _ ⟨rest, -, rfl⟩ ⟨i, y, rest', -, -, h⟩
    exact absurd (hstep (List.cons.inj h).1) (Nat.succ_ne_zero i).symm
  have hcons : Function.Injective (step 0 :: ·) := fun _ _ h ↦ (List.cons.inj h).2
  rw [waysThrough_cons, Set.encard_union_eq hdisjoint, hcons.encard_image]

end Through

/-! ### Ways to blocks -/

namespace Node

/-- The steps from a node that lead to a block: to the node itself, or to one below it. -/
def waysToBlocks (n : Node) : Set (List Step) :=
  {steps | ∃ b, n.descend? steps = some (.block b)}

/-- That the children of a node are the members of a list, each behind its own step. -/
def ChildrenAre {α : Type} (n : Node) (step : Nat → Step) (node : α → Node) (xs : List α) : Prop :=
  ∀ s m, n.child? s = some m ↔ ∃ i x, xs[i]? = some x ∧ s = step i ∧ m = node x

theorem childrenAre_item (i : ListItem) : (item i).ChildrenAre .block block i.blocks := by
  intro s m
  constructor
  · intro h
    cases Subtree.isChild_of_child?_node h with
    | blockOfItem hb => exact ⟨_, _, hb, rfl, rfl⟩
  · rintro ⟨index, b, hb, rfl, rfl⟩
    rw [child?, hb, Option.map_some]

theorem childrenAre_list (l : ItemList) : (block (.list l)).ChildrenAre .item item l.items := by
  intro s m
  constructor
  · intro h
    cases Subtree.isChild_of_child?_node h with
    | item hi => exact ⟨_, _, hi, rfl, rfl⟩
  · rintro ⟨index, i, hi, rfl, rfl⟩
    rw [child?, hi, Option.map_some]

theorem childrenAre_container {b : Block} {blocks : List Block} (h : b.children? = some blocks) :
    (block b).ChildrenAre .block block blocks := by
  intro s m
  constructor
  · intro hchild
    cases Subtree.isChild_of_child?_node hchild with
    | blockOfSection hb | blockOfCompound hb =>
      cases h
      exact ⟨_, _, hb, rfl, rfl⟩
    | item | cell => cases h
  · rintro ⟨index, child, hb, rfl, rfl⟩
    cases b with
    | sect | compound =>
      cases h
      simp only [child?, Block.children?, hb, Option.bind_eq_bind, Option.bind_some, Option.pure_def]
    | _ => cases h

section Ways

variable {α : Type} {b : Block} {n : Node} {step : Nat → Step} {node : α → Node} {xs : List α}
  {s : Step} {steps rest : List Step}

theorem nil_mem_waysToBlocks (b : Block) : [] ∈ (block b).waysToBlocks :=
  ⟨b, rfl⟩

theorem cons_mem_waysToBlocks :
    s :: rest ∈ n.waysToBlocks ↔ ∃ m, n.child? s = some m ∧ rest ∈ m.waysToBlocks := by
  constructor
  · rintro ⟨b, h⟩
    obtain ⟨m, hm, h⟩ := Option.bind_eq_some_iff.mp h
    exact ⟨m, hm, b, h⟩
  · rintro ⟨m, hm, b, h⟩
    refine ⟨b, ?_⟩
    rw [descend?, hm, Option.bind_some, h]

/-- The ways below a node go through its children. -/
theorem mem_waysToBlocks_of_children (hne : steps ≠ []) (h : n.ChildrenAre step node xs) :
    steps ∈ n.waysToBlocks ↔ steps ∈ waysThrough step (fun x ↦ (node x).waysToBlocks) xs := by
  obtain ⟨s, rest, rfl⟩ := List.exists_cons_of_ne_nil hne
  rw [cons_mem_waysToBlocks]
  constructor
  · rintro ⟨m, hm, hrest⟩
    obtain ⟨i, x, hx, rfl, rfl⟩ := (h s m).mp hm
    exact ⟨i, x, rest, hx, hrest, rfl⟩
  · rintro ⟨i, x, _, hx, hrest, heq⟩
    cases heq
    exact ⟨node x, (h _ _).mpr ⟨i, x, hx, rfl, rfl⟩, hrest⟩

/-- An item is no block, so that there are only the ways below it. -/
theorem waysToBlocks_item (i : ListItem) :
    (item i).waysToBlocks = waysThrough .block (fun b ↦ (block b).waysToBlocks) i.blocks := by
  ext steps
  by_cases hnil : steps = []
  · subst hnil
    refine iff_of_false ?_ (nil_notMem_waysThrough _)
    rintro ⟨b, h⟩
    cases h
  · exact mem_waysToBlocks_of_children hnil (childrenAre_item i)

/-- A block counts itself and what is below it. -/
theorem encard_waysToBlocks_of_children (h : (block b).ChildrenAre step node xs) :
    (block b).waysToBlocks.encard
      = 1 + (waysThrough step (fun x ↦ (node x).waysToBlocks) xs).encard := by
  have hways : (block b).waysToBlocks
      = insert [] (waysThrough step (fun x ↦ (node x).waysToBlocks) xs) := by
    ext steps
    by_cases hnil : steps = []
    · subst hnil
      exact iff_of_true (nil_mem_waysToBlocks b) (Set.mem_insert _ _)
    · rw [Set.mem_insert_iff, or_iff_right hnil, mem_waysToBlocks_of_children hnil h]
  rw [hways, Set.encard_insert_of_notMem (nil_notMem_waysThrough xs), add_comm]

/-- There is no way to a block from a cell. -/
theorem waysToBlocks_cell (c : TableCell) : (cell c).waysToBlocks = ∅ := by
  refine Set.eq_empty_of_forall_notMem fun steps h ↦ ?_
  cases steps with
  | nil =>
    obtain ⟨b, h⟩ := h
    cases h
  | cons s rest =>
    obtain ⟨m, hm, -⟩ := cons_mem_waysToBlocks.mp h
    cases hm

/-- A block counts only itself if its children are cells. -/
theorem encard_waysToBlocks_of_cells (h : ∀ s m, (block b).child? s = some m → ∃ c, m = cell c) :
    (block b).waysToBlocks.encard = 1 := by
  have hways : (block b).waysToBlocks = {[]} := by
    refine Set.eq_singleton_iff_unique_mem.mpr ⟨nil_mem_waysToBlocks b, fun steps hsteps ↦ ?_⟩
    cases steps with
    | nil => rfl
    | cons s rest =>
      obtain ⟨m, hm, hrest⟩ := cons_mem_waysToBlocks.mp hsteps
      obtain ⟨c, rfl⟩ := h s m hm
      rw [waysToBlocks_cell] at hrest
      exact absurd hrest (Set.notMem_empty _)
  rw [hways, Set.encard_singleton]

end Ways

end Node

/-! ### The count -/

mutual

theorem Block.encard_waysToBlocks : ∀ b : Block, (Node.block b).waysToBlocks.encard = b.count
  | .list ⟨_, _, _, items⟩ => by
    rw [Node.encard_waysToBlocks_of_children (Node.childrenAre_list _),
      encard_waysThrough_items items fun _ _ ↦ Step.item.inj, Block.count, Nat.cast_add,
      Nat.cast_one]
  | .sect ⟨_, _, _, blocks, _⟩ => by
    rw [Node.encard_waysToBlocks_of_children (Node.childrenAre_container rfl),
      encard_waysThrough_blocks blocks fun _ _ ↦ Step.block.inj, Block.count, Nat.cast_add,
      Nat.cast_one]
  | .compound ⟨_, _, _, blocks⟩ => by
    rw [Node.encard_waysToBlocks_of_children (Node.childrenAre_container rfl),
      encard_waysThrough_blocks blocks fun _ _ ↦ Step.block.inj, Block.count, Nat.cast_add,
      Nat.cast_one]
  | .table _ | .math _ | .prose _ | .image _ | .passthrough _ => by
    refine (Node.encard_waysToBlocks_of_cells fun s m h ↦ ?_).trans Nat.cast_one.symm
    cases Subtree.isChild_of_child?_node h <;> exact ⟨_, rfl⟩

theorem encard_waysThrough_blocks : ∀ (bs : List Block) {step : Nat → Step},
    Function.Injective step →
      (waysThrough step (fun b ↦ (Node.block b).waysToBlocks) bs).encard = countBlocks bs
  | [], _, _ => by
    rw [waysThrough_nil, Set.encard_empty]
    rfl
  | b :: bs, _, hstep => by
    rw [encard_waysThrough_cons hstep, b.encard_waysToBlocks,
      encard_waysThrough_blocks bs (hstep.comp Nat.succ_injective), countBlocks, Nat.cast_add]

theorem encard_waysThrough_items : ∀ (items : List ListItem) {step : Nat → Step},
    Function.Injective step →
      (waysThrough step (fun i ↦ (Node.item i).waysToBlocks) items).encard = countInItems items
  | [], _, _ => by
    rw [waysThrough_nil, Set.encard_empty]
    rfl
  | ⟨_, blocks⟩ :: items, _, hstep => by
    rw [encard_waysThrough_cons hstep, Node.waysToBlocks_item,
      encard_waysThrough_blocks blocks fun _ _ ↦ Step.block.inj,
      encard_waysThrough_items items (hstep.comp Nat.succ_injective), countInItems, Nat.cast_add]

end

namespace Document

variable {d : Document} {c : Candidate} {old b : Block}

/-- A path to a block goes through the blocks of the document. -/
theorem pathsToBlocks_eq (d : Document) :
    {path : NodePath | ∃ b, d.node? path = some (.block b)}
      = waysThrough .block (fun b ↦ (Node.block b).waysToBlocks) d.blocks := by
  ext path
  constructor
  · rintro ⟨b, h⟩
    unfold node? at h
    split at h
    · next index steps =>
      obtain ⟨first, hfirst, h⟩ := Option.bind_eq_some_iff.mp h
      exact ⟨index, first, steps, hfirst, ⟨b, h⟩, rfl⟩
    · cases h
  · rintro ⟨index, first, steps, hfirst, ⟨b, h⟩, rfl⟩
    refine ⟨b, ?_⟩
    rw [node?, hfirst, Option.bind_some, h]

/-! ### The count after an edit -/

/-- To set a text does not change the number of blocks. -/
theorem totalBlocks_setText (d : Document) (c : Candidate) (text : String) :
    (d.setText c text).2.totalBlocks = d.totalBlocks := by
  cases hread : d.textOf? c with
  | none => rw [setText_of_none hread]
  | some before =>
    obtain ⟨n, n', d', hn, hchanged, -, hrun⟩ := exists_setText (Option.isSome_of_mem hread) text
    have hcount := hchanged.totalBlocks_inside? (Node.replaces_of_setText? hn) []
    rw [hrun]
    exact Option.some.inj hcount

/-- A block that is exchanged counts no more, and the new one counts in its place. -/
theorem totalBlocks_replaceBlock (h : (d.replaceBlock c b).1 = .ok old) :
    (d.replaceBlock c b).2.totalBlocks + old.count = d.totalBlocks + b.count := by
  obtain ⟨d', hchanged, hrun⟩ := exists_replaceBlock (replaceBlock_eq_ok_iff.mp h) b
  rw [hrun]
  exact Subtree.Changed.count_add hchanged

/-! ### Main results -/

/-- **As many blocks are counted as paths lead to blocks.** No text that is set changes the number,
and a block that is exchanged changes it by the difference of what the two blocks count; so an image
or markup in the place of an equation leaves it as it is. -/
theorem totalBlocks_counts_paths (d : Document) :
    {path : NodePath | ∃ b, d.node? path = some (.block b)}.encard = d.totalBlocks ∧
    (∀ c text, (d.setText c text).2.totalBlocks = d.totalBlocks) ∧
    (∀ c old b, (d.replaceBlock c b).1 = .ok old →
      (d.replaceBlock c b).2.totalBlocks + old.count = d.totalBlocks + b.count) ∧
    ∀ c m b, (d.replaceBlock c b).1 = .ok (.math m) →
      ((∃ i, b = .image i) ∨ ∃ p, b = .passthrough p) →
      (d.replaceBlock c b).2.totalBlocks = d.totalBlocks := by
  refine ⟨?_, totalBlocks_setText d, fun c old b ↦ totalBlocks_replaceBlock, fun c m b h hb ↦ ?_⟩
  · rw [pathsToBlocks_eq, encard_waysThrough_blocks d.blocks fun _ _ ↦ Step.block.inj, totalBlocks]
  · have hcount := totalBlocks_replaceBlock h
    obtain ⟨i, rfl⟩ | ⟨p, rfl⟩ := hb
    · exact Nat.add_right_cancel hcount
    · exact Nat.add_right_cancel hcount

/-- A list whose item has an equation attached to it, and beside it a table with a document in its
cell. -/
def listAndTable : Document :=
  ⟨.empty,
    [.list ⟨none, none, .ordered 1,
      [⟨"item", [.math ⟨none, none, "latexmath", "x", none⟩]⟩]⟩,
      .table ⟨none, none,
        [⟨[⟨.asciiDoc, "", some ⟨.empty, [.image ⟨none, none, "x.svg", "", none, none, none⟩]⟩,
          1, 1⟩]⟩], 0⟩]⟩

/-- Three paths lead to blocks there, and the same number after the equation has been exchanged for
an image; two, if the list is exchanged for it. -/
theorem totalBlocks_counts_paths_listAndTable :
    let d := listAndTable
    let equation : Candidate := ⟨[.block 0, .item 0, .block 0], .mathBlock⟩
    let list : Candidate := ⟨[.block 0], .prose⟩
    let image : Block := .image ⟨none, none, "x.svg", "", none, none, none⟩
    {path : NodePath | ∃ b, d.node? path = some (.block b)}.encard = 3 ∧
      (d.setText ⟨[.block 0, .item 0], .listItem⟩ "new").2.totalBlocks = 3 ∧
      (d.replaceBlock equation image).2.totalBlocks = 3 ∧
      (d.replaceBlock list image).2.totalBlocks = 2 := by
  obtain ⟨hpaths, htext, hblock, hrendered⟩ := totalBlocks_counts_paths listAndTable
  have hequation := hrendered ⟨[.block 0, .item 0, .block 0], .mathBlock⟩
    ⟨none, none, "latexmath", "x", none⟩ (.image ⟨none, none, "x.svg", "", none, none, none⟩) rfl
    (.inl ⟨_, rfl⟩)
  have hlist := hblock ⟨[.block 0], .prose⟩ _ (.image ⟨none, none, "x.svg", "", none, none, none⟩)
    rfl
  exact ⟨hpaths, htext _ _, hequation, Nat.add_right_cancel hlist⟩

end Document

end DocumentMath
