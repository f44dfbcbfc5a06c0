import DocumentMath.Proofs.Document.Sites
import DocumentMath.Proofs.Document.Traversal

/-!
# What stands at the sites

The sites of a document are looked up by paths; the spots of a document are what a traversal of the
tree comes to. Both are the same list: what stands at the sites of a document, one after the other,
are its spots (`Document.map_spotIn?_sites`). So sites are in the order of the tree: the title of a
section before its blocks, the text of an item before the blocks attached to it, cells row by row,
and the document in a cell where the cell is.

The proof goes down the tree as the traversal does, and what it carries is `Document.StandAt`: the
sites that are made of a list of candidates stand at a list of spots. Such lists can be put behind
each other, so that there is one case for each constructor.
-/

namespace DocumentMath

/-- What a traversal comes to at a node, seen as a candidate of a kind. -/
def Node.spot? (attributes : Attributes) : CandidateKind → Node → Option Spot
  | .mathBlock, .block (.math m) => some (.math m)
  | .nestedDocument, _ => some .nested
  | kind, n => (kind.textOf? n).map (.text attributes)

theorem Node.spot?_text {attributes : Attributes} {kind : CandidateKind} {n : Node} {text : String}
    (hkind : kind.isText = true) (htext : kind.textOf? n = some text) :
    n.spot? attributes kind = some (.text attributes text) := by
  cases kind
  case mathBlock => cases hkind
  case nestedDocument => cases hkind
  all_goals simp only [spot?, htext, Option.map_some]

/-- The spot at a site of a document. -/
def Site.spotIn? (s : Site) (d : Document) : Option Spot :=
  (s.nodeIn? d).bind (Node.spot? s.attributes s.candidate.kind)

/-! ### Sites and spots -/

namespace Document

/-- The sites that candidates of `d` make stand at spots, where `d` is inside of `top`. -/
def StandAt (top d : Document) (within : List NodePath) (attributes : Attributes)
    (cs : List Candidate) (xs : List Spot) : Prop :=
  (d.sitesOf within attributes cs).map (·.spotIn? top) = xs.map some

variable {top d : Document} {within : List NodePath} {attributes : Attributes}

theorem standAt_nil : top.StandAt d within attributes [] [] := rfl

theorem standAt_append {cs ds : List Candidate} {xs ys : List Spot}
    (hxs : top.StandAt d within attributes cs xs) (hys : top.StandAt d within attributes ds ys) :
    top.StandAt d within attributes (cs ++ ds) (xs ++ ys) := by
  rw [StandAt, sitesOf_append, List.map_append, List.map_append, hxs, hys]

section Lists

variable (hinside : top.inside? within = some d)
include hinside

theorem spotIn?_eq {path : NodePath} {kind : CandidateKind} {n : Node}
    (h : d.node? path = some n) :
    Site.spotIn? ⟨within, ⟨path, kind⟩, attributes⟩ top = n.spot? attributes kind := by
  have hnode : Site.nodeIn? ⟨within, ⟨path, kind⟩, attributes⟩ top = some n := by
    rw [Site.nodeIn?, nodeIn?, hinside, Option.bind_some, h]
  rw [Site.spotIn?, hnode, Option.bind_some]

theorem standAt_cons {path : NodePath} {kind : CandidateKind} {n : Node} {x : Spot}
    {cs : List Candidate} {xs : List Spot} (h : d.node? path = some n)
    (hkind : kind ≠ .nestedDocument) (hspot : n.spot? attributes kind = some x)
    (hxs : top.StandAt d within attributes cs xs) :
    top.StandAt d within attributes (⟨path, kind⟩ :: cs) (x :: xs) := by
  rw [StandAt, sitesOf_cons_of_ne hkind, List.map_cons, List.map_cons, spotIn?_eq hinside h, hspot,
    hxs]

end Lists

mutual

theorem Block.standAt (d : Document) (within : List NodePath) (attributes : Attributes)
    (hinside : top.inside? within = some d) : ∀ (b : Block) {path : NodePath},
      d.node? path = some (.block b) →
        top.StandAt d within attributes (b.candidates path) (b.spots attributes)
  | .math _, _, hd => standAt_cons hinside hd (by decide) rfl standAt_nil
  | .prose p, _, hd => by
    rw [Block.candidates, Block.spots]
    split
    · exact standAt_cons hinside hd (by decide) rfl standAt_nil
    · exact standAt_nil
  | .list ⟨_, _, _, items⟩, _, hd =>
    items_standAt d within attributes hinside items
      (hasChildren_of_node? hd fun i x hx ↦ by simp [Node.child?, hx])
  | .sect ⟨_, _, _, blocks, _⟩, _, hd =>
    standAt_cons hinside hd (by decide) rfl (blocks_standAt d within attributes hinside blocks
      (hasChildren_of_node? hd fun i x hx ↦ by simp [Node.child?, Block.children?, hx]))
  | .compound ⟨_, _, _, blocks⟩, _, hd =>
    blocks_standAt d within attributes hinside blocks
      (hasChildren_of_node? hd fun i x hx ↦ by simp [Node.child?, Block.children?, hx])
  | .table ⟨_, _, rows, _⟩, _, hd =>
    rows_standAt d within attributes hinside rows fun i r hr ↦
      hasChildren_of_node? hd fun j c hc ↦ by simp [Node.child?, hr, hc]
  | .image _, _, _ => standAt_nil
  | .passthrough _, _, _ => standAt_nil

theorem blocks_standAt (d : Document) (within : List NodePath) (attributes : Attributes)
    (hinside : top.inside? within = some d) : ∀ (bs : List Block) {path : NodePath} {index : Nat},
      d.HasChildren path .block Node.block index bs →
        top.StandAt d within attributes (blockCandidates path index bs)
          (spotsOfBlocks attributes bs)
  | [], _, _, _ => standAt_nil
  | b :: bs, _, _, hd =>
    standAt_append (Block.standAt d within attributes hinside b hd.head)
      (blocks_standAt d within attributes hinside bs hd.tail)

theorem items_standAt (d : Document) (within : List NodePath) (attributes : Attributes)
    (hinside : top.inside? within = some d) :
    ∀ (items : List ListItem) {path : NodePath} {index : Nat},
      d.HasChildren path .item Node.item index items →
        top.StandAt d within attributes (itemCandidates path index items)
          (spotsOfItems attributes items)
  | [], _, _, _ => standAt_nil
  | ⟨_, blocks⟩ :: items, _, _, hd =>
    standAt_append
      (standAt_cons hinside hd.head (by decide) rfl
        (blocks_standAt d within attributes hinside blocks
          (hasChildren_of_node? hd.head fun i x hx ↦ by simp [Node.child?, hx])))
      (items_standAt d within attributes hinside items hd.tail)

theorem rows_standAt (d : Document) (within : List NodePath) (attributes : Attributes)
    (hinside : top.inside? within = some d) :
    ∀ (rows : List TableRow) {path : NodePath} {row : Nat},
      (∀ i r, rows[i]? = some r → d.HasChildren path (.cell (row + i)) Node.cell 0 r.cells) →
        top.StandAt d within attributes (rowCandidates path row rows) (spotsOfRows attributes rows)
  | [], _, _, _ => standAt_nil
  | ⟨cells⟩ :: rows, _, row, hd =>
    standAt_append (cells_standAt d within attributes hinside cells (hd 0 _ rfl))
      (rows_standAt d within attributes hinside rows fun i r hr ↦ by
        have hnext := hd (i + 1) r hr
        rwa [Nat.add_comm i, ← Nat.add_assoc] at hnext)

theorem cells_standAt (d : Document) (within : List NodePath) (attributes : Attributes)
    (hinside : top.inside? within = some d) :
    ∀ (cells : List TableCell) {path : NodePath} {row column : Nat},
      d.HasChildren path (.cell row) Node.cell column cells →
        top.StandAt d within attributes (cellCandidates path row column cells)
          (spotsOfCells attributes cells)
  | [], _, _, _, _ => standAt_nil
  | c :: cells, _, _, _, hd =>
    standAt_append (TableCell.standAt d within attributes hinside c hd.head)
      (cells_standAt d within attributes hinside cells hd.tail)

theorem TableCell.standAt (d : Document) (within : List NodePath) (attributes : Attributes)
    (hinside : top.inside? within = some d) : ∀ (c : TableCell) {path : NodePath},
      d.node? path = some (.cell c) →
        top.StandAt d within attributes (c.candidateKind?.map (⟨path, ·⟩ : _ → Candidate)).toList
          (c.spots attributes)
  | ⟨style, text, inner, rowspan, colspan⟩, _, hd => by
    cases style
    case literal => exact standAt_nil
    case asciiDoc => exact inner_standAt d within attributes hinside inner hd
    all_goals exact standAt_cons hinside hd (by decide) rfl standAt_nil

theorem inner_standAt (d : Document) (within : List NodePath) (attributes : Attributes)
    (hinside : top.inside? within = some d) :
    ∀ (inner : Option Document) {text : String} {rowspan colspan : UInt8} {path : NodePath},
      d.node? path = some (.cell ⟨.asciiDoc, text, inner, rowspan, colspan⟩) →
        top.StandAt d within attributes
          ((TableCell.candidateKind? ⟨.asciiDoc, text, inner, rowspan, colspan⟩).map
            (⟨path, ·⟩ : _ → Candidate)).toList (spotsOfInner attributes inner)
  | none, _, _, _, _, _ => standAt_nil
  | some ⟨own, blocks⟩, _, _, _, path, hd => by
    have hinner : d.inner? path = some ⟨own, blocks⟩ := by
      rw [inner?, hd]
      rfl
    -- the document in the cell is inside of the whole document, one cell further
    have hinside' : top.inside? (within ++ [path]) = some ⟨own, blocks⟩ := by
      rw [inside?_append, hinside, Option.bind_some, hinner]
    have hblocks := blocks_standAt ⟨own, blocks⟩ (within ++ [path]) (attributes.extend own)
      hinside' blocks (hasChildren_blocks ⟨own, blocks⟩)
    show (d.sitesOf within attributes [⟨path, .nestedDocument⟩]).map (·.spotIn? top)
      = (Spot.nested :: spotsOfBlocks (attributes.extend own) blocks).map some
    rw [sitesOf_nested hinner, sitesWithin_eq, List.map_cons, List.map_cons,
      spotIn?_eq hinside hd]
    exact congrArg _ hblocks

end

/-- What stands at the sites of a document, one after the other, are its spots. -/
theorem map_spotIn?_sites (d : Document) : d.sites.map (·.spotIn? d) = d.spots.map some := by
  rw [sites, sitesWithin_eq]
  exact blocks_standAt d [] d.attributes rfl d.blocks d.hasChildren_blocks

end Document

end DocumentMath
