import DocumentMath.Document.Candidate

/-!
# Documents in table cells

A cell may hold a document, whose cells may hold documents again. A list of paths leads inward, each
to a cell of the document that the paths before it lead to. `inside?` follows such a list and
`updateInside?` changes the document it leads to.

A *site* is a candidate of a document or of a document inside it, with the attributes that are in
force there: those of the enclosing documents, of which the innermost that sets a name counts.
`sites` lists all of them in document order; the sites of a nested document follow its cell.
-/

namespace DocumentMath

namespace Node

/-- The document in a cell. -/
def inner? : Node → Option Document
  | cell c => c.inner
  | _ => none

/-- A cell with another document in it. -/
def setInner? (d : Document) : Node → Option Node
  | cell c => some (cell { c with inner := some d })
  | _ => none

end Node

namespace Document

/-- The document in the cell at a path. -/
def inner? (d : Document) (path : NodePath) : Option Document :=
  (d.node? path).bind Node.inner?

/-- The document with another document in the cell at a path. -/
def setInner? (d : Document) (path : NodePath) (inner : Document) : Option Document :=
  d.update? (Node.setInner? inner) path

/-- The document that paths lead to. -/
def inside? : Document → List NodePath → Option Document
  | d, [] => some d
  | d, p :: ps => (d.inner? p).bind (·.inside? ps)

/-- The document with a change to the document that paths lead to. -/
def updateInside? (change : Document → Option Document) :
    Document → List NodePath → Option Document
  | d, [] => change d
  | d, p :: ps => do
    let inner ← d.inner? p
    let changed ← inner.updateInside? change ps
    d.setInner? p changed

end Document

/-! ### Nested documents are smaller -/

theorem Block.sizeOf_children?_lt {b : Block} {children : List Block}
    (h : b.children? = some children) : sizeOf children < sizeOf b := by
  cases b with
  | sect s =>
    cases s
    cases h
    simp only [Block.sect.sizeOf_spec, Section.mk.sizeOf_spec]
    omega
  | compound c =>
    cases c
    cases h
    simp only [Block.compound.sizeOf_spec, CompoundBlock.mk.sizeOf_spec]
    omega
  | _ => cases h

namespace Node

/-- The size of what a node is, as a measure for recursion. -/
noncomputable def size : Node → Nat
  | block b => sizeOf b
  | item i => sizeOf i
  | cell c => sizeOf c

theorem size_child?_lt {n m : Node} {s : Step} (h : n.child? s = some m) : m.size < n.size := by
  unfold child? at h
  split at h
  · next l index =>
    obtain ⟨i, hi, rfl⟩ := Option.map_eq_some_iff.mp h
    have := List.sizeOf_lt_of_mem (List.mem_of_getElem? hi)
    cases l
    simp only [size, Block.list.sizeOf_spec, ItemList.mk.sizeOf_spec] at *
    omega
  · next t row column =>
    obtain ⟨r, hr, h⟩ := Option.bind_eq_some_iff.mp h
    obtain ⟨c, hc, h⟩ := Option.bind_eq_some_iff.mp h
    cases h
    have := List.sizeOf_lt_of_mem (List.mem_of_getElem? hr)
    have := List.sizeOf_lt_of_mem (List.mem_of_getElem? hc)
    cases t
    cases r
    simp only [size, Block.table.sizeOf_spec, Table.mk.sizeOf_spec, TableRow.mk.sizeOf_spec] at *
    omega
  · next b index _ =>
    obtain ⟨children, hchildren, h⟩ := Option.bind_eq_some_iff.mp h
    obtain ⟨child, hchild, h⟩ := Option.bind_eq_some_iff.mp h
    cases h
    have := List.sizeOf_lt_of_mem (List.mem_of_getElem? hchild)
    have := Block.sizeOf_children?_lt hchildren
    simp only [size] at *
    omega
  · next i index =>
    obtain ⟨b, hb, rfl⟩ := Option.map_eq_some_iff.mp h
    have := List.sizeOf_lt_of_mem (List.mem_of_getElem? hb)
    cases i
    simp only [size, ListItem.mk.sizeOf_spec] at *
    omega
  · cases h

theorem size_descend?_le {n m : Node} {steps : List Step} (h : n.descend? steps = some m) :
    m.size ≤ n.size := by
  induction steps generalizing n with
  | nil => cases h; exact Nat.le_refl _
  | cons s steps ih =>
    obtain ⟨c, hc, h⟩ := Option.bind_eq_some_iff.mp h
    exact Nat.le_trans (ih h) (Nat.le_of_lt (size_child?_lt hc))

theorem sizeOf_inner?_lt {n : Node} {d : Document} (h : n.inner? = some d) : sizeOf d < n.size := by
  cases n with
  | cell c =>
    cases c
    simp only [inner?] at h
    subst h
    simp only [size, TableCell.mk.sizeOf_spec, Option.some.sizeOf_spec]
    omega
  | _ => cases h

end Node

namespace Document

theorem size_node?_lt {d : Document} {path : NodePath} {n : Node} (h : d.node? path = some n) :
    n.size < sizeOf d := by
  unfold node? at h
  split at h
  · obtain ⟨b, hb, h⟩ := Option.bind_eq_some_iff.mp h
    have hle := Node.size_descend?_le h
    have := List.sizeOf_lt_of_mem (List.mem_of_getElem? hb)
    cases d
    simp only [Node.size, Document.mk.sizeOf_spec] at *
    omega
  · cases h

/-- A document in a cell is smaller than the document around it. -/
theorem sizeOf_inner?_lt {d inner : Document} {path : NodePath} (h : d.inner? path = some inner) :
    sizeOf inner < sizeOf d := by
  obtain ⟨n, hn, hi⟩ := Option.bind_eq_some_iff.mp h
  exact Nat.lt_trans (Node.sizeOf_inner?_lt hi) (size_node?_lt hn)

end Document

/-! ### Sites -/

/-- A candidate of a document or of a document inside it. -/
structure Site where
  /-- The cells that lead to the document the candidate belongs to. -/
  within : List NodePath
  candidate : Candidate
  /-- The attributes in force. -/
  attributes : Attributes

namespace Document

/-- The sites of a document that stands inside others, with the attributes in force in it. -/
def sitesWithin (within : List NodePath) (attributes : Attributes) (d : Document) : List Site :=
  d.candidates.flatMap fun c ↦
    ⟨within, c, attributes⟩ ::
      match c.kind, _h : d.inner? c.path with
      | .nestedDocument, some inner =>
        inner.sitesWithin (within ++ [c.path]) (attributes.extend inner.attributes)
      | _, _ => []
termination_by sizeOf d
decreasing_by exact sizeOf_inner?_lt _h

/-- The sites of a document, in document order. -/
def sites (d : Document) : List Site :=
  d.sitesWithin [] d.attributes

end Document

namespace Site

/-- The text at a site of a document. -/
def textIn? (s : Site) (d : Document) : Option String :=
  (d.inside? s.within).bind (·.textOf? s.candidate)

/-- The document with another text at a site. -/
def setTextIn? (s : Site) (text : String) (d : Document) : Option Document :=
  d.updateInside? (·.setText? s.candidate text) s.within

/-- The block at a site of a document. -/
def blockIn? (s : Site) (d : Document) : Option Block :=
  (d.inside? s.within).bind (·.block? s.candidate.path)

/-- The document with another block at a site. -/
def replaceBlockIn? (s : Site) (replacement : Block) (d : Document) : Option Document :=
  d.updateInside? (·.replaceBlock? s.candidate.path replacement) s.within

end Site

end DocumentMath
