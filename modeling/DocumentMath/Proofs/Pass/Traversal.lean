import DocumentMath.Proofs.Document.Sites
import DocumentMath.Proofs.Pass.Simulation

/-!
# A pass is a traversal

A pass lists the sites of a document, and then looks up each of them and writes changes back. The
main result, `Pass.run_eq_traverse`, is that all of this comes to one traversal of the tree with the
work of the pass (`Pass.visitor`): the same result, the same progress and, where the pass succeeds,
the same document.

The induction is on the tree. It is about a part of the document in a hole of the whole: the sites
below the hole, visited while the original part is in it, leave the traversed part in it
(`Block.simulates`, `blocks_simulate` and so on). What has been visited before is around the hole
and may have been changed; what the sites are was settled by the original document, of which the
induction knows the nodes at the paths it is about.
-/

namespace DocumentMath

/-! ### Holes in lists -/

/-- There is a hole for each member of the list that is put into `C`, whatever the others are. -/
def Holes {α : Type} (within : List NodePath) (path : NodePath) (step : Nat → Step)
    (node : α → Node) (C : List α → Document) : Prop :=
  ∀ done rest, Hole within (path ++ [step done.length]) node fun x ↦ C (done ++ x :: rest)

section Holes

variable {within : List NodePath} {path : NodePath}

theorem DocumentHole.blocks {C : Document → Document} (h : DocumentHole within C)
    (attributes : Attributes) :
    Holes within [] .block Node.block fun blocks ↦ C ⟨attributes, blocks⟩ :=
  fun done rest ↦ h.block attributes done rest

variable {C : Block → Document} (h : Hole within path Node.block C)
include h

theorem Hole.blocksOfSection (id : Option String) (level : UInt8) (title : String)
    (converted : Option String) :
    Holes within path .block Node.block fun blocks ↦
      C (.sect ⟨id, level, title, blocks, converted⟩) := fun done rest ↦
  h.child (fun b ↦ .sect ⟨id, level, title, done ++ b :: rest, converted⟩)
    (fun _ ↦ by simp [Node.child?, Block.children?])
    (fun _ _ ↦ by simp [Node.setChild?, Block.children?, Block.setChildren?])

theorem Hole.blocksOfCompound (id title : Option String) (context : String) :
    Holes within path .block Node.block fun blocks ↦
      C (.compound ⟨id, title, context, blocks⟩) := fun done rest ↦
  h.child (fun b ↦ .compound ⟨id, title, context, done ++ b :: rest⟩)
    (fun _ ↦ by simp [Node.child?, Block.children?])
    (fun _ _ ↦ by simp [Node.setChild?, Block.children?, Block.setChildren?])

theorem Hole.items (id title : Option String) (style : ListStyle) :
    Holes within path .item Node.item fun items ↦ C (.list ⟨id, title, style, items⟩) :=
  fun done rest ↦
  h.child (fun i ↦ .list ⟨id, title, style, done ++ i :: rest⟩)
    (fun _ ↦ by simp [Node.child?])
    (fun _ _ ↦ by simp [Node.setChild?])

theorem Hole.cells (id title : Option String) (headerRows : UInt8) (done rest : List TableRow) :
    Holes within path (.cell done.length) Node.cell fun cells ↦
      C (.table ⟨id, title, done ++ ⟨cells⟩ :: rest, headerRows⟩) := fun cells cells' ↦
  h.child (fun c ↦ .table ⟨id, title, done ++ ⟨cells ++ c :: cells'⟩ :: rest, headerRows⟩)
    (fun _ ↦ by simp [Node.child?])
    (fun _ _ ↦ by simp [Node.setChild?, List.modify_eq_take_cons_drop])

end Holes

theorem Hole.blocksOfItem {within : List NodePath} {path : NodePath} {C : ListItem → Document}
    (h : Hole within path Node.item C) (text : String) :
    Holes within path .block Node.block fun blocks ↦ C ⟨text, blocks⟩ := fun done rest ↦
  h.child (fun b ↦ ⟨text, done ++ b :: rest⟩)
    (fun _ ↦ by simp [Node.child?])
    (fun _ _ ↦ by simp [Node.setChild?])

/-! ### The induction -/

section Induction

variable {σ : Type} (p : Pass σ)

/-- The visits of the sites that candidates of a document make. -/
def Pass.visits (d : Document) (within : List NodePath) (attributes : Attributes)
    (cs : List Candidate) : PassM σ Unit :=
  (d.sitesOf within attributes cs).forM p.visit

variable {d : Document} {within : List NodePath} {attributes : Attributes}

theorem Pass.visits_append (cs ds : List Candidate) :
    p.visits d within attributes (cs ++ ds)
      = (p.visits d within attributes cs >>= fun _ ↦ p.visits d within attributes ds) := by
  rw [visits, Document.sitesOf_append]
  exact List.forM_append

theorem Pass.visits_cons_of_ne {path : NodePath} {kind : CandidateKind}
    (hkind : kind ≠ .nestedDocument) (cs : List Candidate) :
    p.visits d within attributes (⟨path, kind⟩ :: cs)
      = (p.visit ⟨within, ⟨path, kind⟩, attributes⟩ >>= fun _ ↦
        p.visits d within attributes cs) := by
  rw [visits, Document.sitesOf_cons_of_ne hkind]
  exact List.forM_cons

theorem Pass.visits_singleton_of_ne {path : NodePath} {kind : CandidateKind}
    (hkind : kind ≠ .nestedDocument) :
    p.visits d within attributes [⟨path, kind⟩]
      = p.visit ⟨within, ⟨path, kind⟩, attributes⟩ := by
  rw [visits_cons_of_ne p hkind]
  exact bind_pure _

theorem Pass.visits_nested {path : NodePath} {inner : Document} (h : d.inner? path = some inner) :
    p.visits d within attributes [⟨path, .nestedDocument⟩]
      = (p.visit ⟨within, ⟨path, .nestedDocument⟩, attributes⟩ >>= fun _ ↦
        p.visits inner (within ++ [path]) (attributes.extend inner.attributes)
          inner.candidates) := by
  rw [visits, Document.sitesOf_nested h, Document.sitesWithin_eq]
  exact List.forM_cons

mutual

theorem Block.simulates (d : Document) (within : List NodePath) (attributes : Attributes) :
    ∀ (b : Block) {path : NodePath} {C : Block → Document}, Hole within path Node.block C →
      d.node? path = some (.block b) →
      Simulates (p.visits d within attributes (b.candidates path)) (C b)
        (b.traverse p.visitor attributes) C
  | .math m, path, C, hC, hd => by
    rw [Block.candidates, Pass.visits_singleton_of_ne p (by decide)]
    exact simulates_math p hC m
  | .prose q, path, C, hC, hd => by
    rw [Block.candidates, Block.traverse]
    split
    · rw [Pass.visits_singleton_of_ne p (by decide)]
      refine Simulates.map ?_
      exact simulates_text p hC rfl (fun new? ↦ .prose (q.edited new?)) rfl fun _ ↦ rfl
    · exact Simulates.pure _ C
  | .list ⟨id, title, style, items⟩, path, C, hC, hd => by
    rw [Block.candidates, Block.traverse]
    refine Simulates.map ?_
    exact items_simulate d within attributes items [] (hC.items id title style)
      (Document.hasChildren_of_node? hd fun i x hx ↦ by simp [Node.child?, hx])
  | .sect ⟨id, level, title, blocks, converted⟩, path, C, hC, hd => by
    rw [Block.candidates, Block.traverse, Pass.visits_cons_of_ne p (by decide)]
    refine Simulates.bind (C := fun new? ↦
      C (.sect (Section.edited new? ⟨id, level, title, blocks, converted⟩))) ?_ fun new? ↦ ?_
    · exact simulates_text p hC rfl
        (fun new? ↦ .sect (Section.edited new? ⟨id, level, title, blocks, converted⟩)) rfl
        fun _ ↦ rfl
    · -- the blocks are in a section that has its new title already
      refine Simulates.map ?_
      obtain ⟨converted', hedited⟩ := Section.edited_eq new? id level title converted
      simp only [hedited]
      exact blocks_simulate d within attributes blocks []
        (hC.blocksOfSection id level (new?.getD title) converted')
        (Document.hasChildren_of_node? hd fun i x hx ↦ by simp [Node.child?, Block.children?, hx])
  | .compound ⟨id, title, context, blocks⟩, path, C, hC, hd => by
    rw [Block.candidates, Block.traverse]
    refine Simulates.map ?_
    exact blocks_simulate d within attributes blocks [] (hC.blocksOfCompound id title context)
      (Document.hasChildren_of_node? hd fun i x hx ↦ by simp [Node.child?, Block.children?, hx])
  | .table ⟨id, title, rows, headerRows⟩, path, C, hC, hd => by
    rw [Block.candidates, Block.traverse]
    refine Simulates.map ?_
    refine rows_simulate d within attributes rows (C := fun rows ↦
      C (.table ⟨id, title, rows, headerRows⟩)) [] (hC.cells id title headerRows) ?_
    intro i r hr
    refine Document.hasChildren_of_node? hd fun j c hc ↦ ?_
    simp [Node.child?, hr, hc]
  | .image _, path, C, hC, hd => Simulates.pure _ C
  | .passthrough _, path, C, hC, hd => Simulates.pure _ C

theorem blocks_simulate (d : Document) (within : List NodePath) (attributes : Attributes) :
    ∀ (bs : List Block) {path : NodePath} {C : List Block → Document} (done : List Block),
      Holes within path .block Node.block C →
      d.HasChildren path .block Node.block done.length bs →
      Simulates (p.visits d within attributes (blockCandidates path done.length bs))
        (C (done ++ bs)) (traverseBlocks p.visitor attributes bs) fun bs ↦ C (done ++ bs)
  | [], path, C, done, hC, hd => Simulates.pure [] fun bs ↦ C (done ++ bs)
  | b :: bs, path, C, done, hC, hd => by
    rw [blockCandidates, traverseBlocks, Pass.visits_append]
    refine Simulates.bind (b.simulates d within attributes (hC done bs) hd.head) fun b' ↦ ?_
    refine Simulates.map ?_
    -- what has been made of the first block is now one of those that are done
    have hrest := blocks_simulate d within attributes bs (done ++ [b']) hC
      (by simpa using hd.tail)
    simpa using hrest

theorem items_simulate (d : Document) (within : List NodePath) (attributes : Attributes) :
    ∀ (items : List ListItem) {path : NodePath} {C : List ListItem → Document}
      (done : List ListItem), Holes within path .item Node.item C →
      d.HasChildren path .item Node.item done.length items →
      Simulates (p.visits d within attributes (itemCandidates path done.length items))
        (C (done ++ items)) (traverseItems p.visitor attributes items) fun items ↦
          C (done ++ items)
  | [], path, C, done, hC, hd => Simulates.pure [] fun items ↦ C (done ++ items)
  | ⟨text, blocks⟩ :: items, path, C, done, hC, hd => by
    rw [itemCandidates, traverseItems, Pass.visits_append, Pass.visits_cons_of_ne p (by decide),
      bind_assoc]
    refine Simulates.bind (C := fun new? ↦ C (done ++ ⟨new?.getD text, blocks⟩ :: items)) ?_
      fun new? ↦ ?_
    · exact simulates_text p (hC done items) rfl (fun new? ↦ ⟨new?.getD text, blocks⟩) rfl
        fun _ ↦ rfl
    refine Simulates.bind (C := fun blocks ↦ C (done ++ ⟨new?.getD text, blocks⟩ :: items)) ?_
      fun blocks' ↦ ?_
    · exact blocks_simulate d within attributes blocks []
        ((hC done items).blocksOfItem (new?.getD text))
        (Document.hasChildren_of_node? hd.head fun i x hx ↦ by simp [Node.child?, hx])
    · refine Simulates.map ?_
      have hrest := items_simulate d within attributes items (done ++ [⟨new?.getD text, blocks'⟩])
        hC (by simpa using hd.tail)
      simpa using hrest

theorem rows_simulate (d : Document) (within : List NodePath) (attributes : Attributes) :
    ∀ (rows : List TableRow) {path : NodePath} {C : List TableRow → Document}
      (done : List TableRow),
      (∀ done rest, Holes within path (.cell (List.length done)) Node.cell fun cells ↦
        C (done ++ ⟨cells⟩ :: rest)) →
      (∀ i r, rows[i]? = some r →
        d.HasChildren path (.cell (done.length + i)) Node.cell 0 r.cells) →
      Simulates (p.visits d within attributes (rowCandidates path done.length rows))
        (C (done ++ rows)) (traverseRows p.visitor attributes rows) fun rows ↦ C (done ++ rows)
  | [], path, C, done, hC, hd => Simulates.pure [] fun rows ↦ C (done ++ rows)
  | ⟨cells⟩ :: rows, path, C, done, hC, hd => by
    rw [rowCandidates, traverseRows, Pass.visits_append]
    refine Simulates.bind (C := fun cells ↦ C (done ++ ⟨cells⟩ :: rows)) ?_ fun cells' ↦ ?_
    · exact cells_simulate d within attributes cells [] (hC done rows) (hd 0 ⟨cells⟩ rfl)
    · refine Simulates.map ?_
      have hrest := rows_simulate d within attributes rows (done ++ [⟨cells'⟩]) hC
        fun i r hr ↦ by simpa [Nat.add_assoc, Nat.add_comm 1] using hd (i + 1) r hr
      simpa using hrest

theorem cells_simulate (d : Document) (within : List NodePath) (attributes : Attributes) :
    ∀ (cells : List TableCell) {path : NodePath} {row : Nat} {C : List TableCell → Document}
      (done : List TableCell), Holes within path (.cell row) Node.cell C →
      d.HasChildren path (.cell row) Node.cell done.length cells →
      Simulates (p.visits d within attributes (cellCandidates path row done.length cells))
        (C (done ++ cells)) (traverseCells p.visitor attributes cells) fun cells ↦
          C (done ++ cells)
  | [], path, row, C, done, hC, hd => Simulates.pure [] fun cells ↦ C (done ++ cells)
  | c :: cells, path, row, C, done, hC, hd => by
    rw [cellCandidates, traverseCells, Pass.visits_append]
    refine Simulates.bind (c.simulates d within attributes (hC done cells) hd.head) fun c' ↦ ?_
    refine Simulates.map ?_
    have hrest := cells_simulate d within attributes cells (done ++ [c']) hC
      (by simpa using hd.tail)
    simpa using hrest

theorem TableCell.simulates (d : Document) (within : List NodePath) (attributes : Attributes) :
    ∀ (c : TableCell) {path : NodePath} {C : TableCell → Document}, Hole within path Node.cell C →
      d.node? path = some (.cell c) →
      Simulates
        (p.visits d within attributes (c.candidateKind?.map (⟨path, ·⟩ : _ → Candidate)).toList)
        (C c) (c.traverse p.visitor attributes) C
  | ⟨style, text, inner, rowspan, colspan⟩, path, C, hC, hd => by
    cases style <;> simp only [TableCell.traverse]
    case literal => exact Simulates.pure _ C
    case asciiDoc =>
      refine Simulates.map ?_
      exact inner_simulates d within attributes inner text rowspan colspan hC hd
    all_goals
      refine Simulates.map ?_
      rw [TableCell.candidateKind?, Option.map_some, Option.toList_some,
        Pass.visits_singleton_of_ne p (by decide)]
      exact simulates_text p hC rfl (fun new? ↦ ⟨_, new?.getD text, inner, rowspan, colspan⟩) rfl
        fun _ ↦ rfl

theorem inner_simulates (d : Document) (within : List NodePath) (attributes : Attributes) :
    ∀ (inner : Option Document) (text : String) (rowspan colspan : UInt8) {path : NodePath}
      {C : TableCell → Document}, Hole within path Node.cell C →
      d.node? path = some (.cell ⟨.asciiDoc, text, inner, rowspan, colspan⟩) →
      Simulates
        (p.visits d within attributes
          ((TableCell.candidateKind? ⟨.asciiDoc, text, inner, rowspan, colspan⟩).map
            (⟨path, ·⟩ : _ → Candidate)).toList)
        (C ⟨.asciiDoc, text, inner, rowspan, colspan⟩) (traverseInner p.visitor attributes inner)
        fun inner ↦ C ⟨.asciiDoc, text, inner, rowspan, colspan⟩
  | none, text, rowspan, colspan, path, C, hC, hd =>
    Simulates.pure none fun inner ↦ C ⟨.asciiDoc, text, inner, rowspan, colspan⟩
  | some ⟨own, blocks⟩, text, rowspan, colspan, path, C, hC, hd => by
    have hinner : d.inner? path = some ⟨own, blocks⟩ := by
      rw [Document.inner?, hd]
      rfl
    have hhole := hC.document (fun d ↦ ⟨.asciiDoc, text, some d, rowspan, colspan⟩)
      (fun _ ↦ rfl) fun _ _ ↦ rfl
    rw [TableCell.candidateKind?, Option.map_some, Option.toList_some, Pass.visits_nested p hinner,
      traverseInner]
    refine Simulates.bind (simulates_nested p _) fun _ ↦ Simulates.map ?_
    exact blocks_simulate ⟨own, blocks⟩ (within ++ [path]) (attributes.extend own) blocks []
      (hhole.blocks own) (Document.hasChildren_blocks ⟨own, blocks⟩)

end

/-- The visits of the sites of a document simulate its traversal. -/
theorem Document.simulates (d : Document) :
    Simulates (d.sites.forM p.visit) d (d.traverse p.visitor) id := by
  obtain ⟨attributes, blocks⟩ := d
  rw [Document.sites, Document.sitesWithin_eq]
  exact Simulates.map (blocks_simulate p ⟨attributes, blocks⟩ [] attributes blocks []
    (documentHole_id.blocks attributes) (Document.hasChildren_blocks _))

end Induction

/-! ### The whole pass -/

namespace Pass

variable {σ : Type} (p : Pass σ)

/-- The traversal that a pass over a document comes to: its result and the progress it makes. -/
def traversal (d : Document) (world : σ) : Except Error Document × Progress σ :=
  (d.traverse p.visitor).run.run (.initial world)

theorem steps_eq (d : Document) (world : σ) :
    ∃ document, p.steps d world = ((p.traversal d world).1.map fun _ ↦ (),
        ⟨document, (p.traversal d world).2.report, (p.traversal d world).2.rendering⟩) ∧
      ∀ new, (p.traversal d world).1 = .ok new → document = new :=
  d.simulates p (.initial world)

/-- **A pass is a traversal.** It ends as the traversal of the tree does and leaves what that
returns. -/
theorem run_eq_traverse (d : Document) (world : σ) :
    (p.run d world).result = ((p.traversal d world).1.map fun _ ↦
        { (p.traversal d world).2.report with
          filesWritten := (p.traversal d world).2.rendering.renderer.filesWritten }) ∧
      (p.run d world).world = (p.traversal d world).2.rendering.world ∧
        ∀ new, (p.traversal d world).1 = .ok new → (p.run d world).document = new := by
  obtain ⟨document, hsteps, hdocument⟩ := p.steps_eq d world
  rw [run, hsteps]
  refine ⟨?_, rfl, hdocument⟩
  cases (p.traversal d world).1 <;> rfl

/-- What can be seen in the document that the traversal returns can be seen after the pass. -/
theorem look_document_of_traversal {α : Type} {look : Document → Option α} {d : Document}
    {world : σ} {a : α} (h : (p.traversal d world).1.toOption.bind look = some a) :
    look (p.run d world).document = some a := by
  rcases hnew : (p.traversal d world).1 with e | new <;> rw [hnew] at h
  · cases h
  · rwa [(p.run_eq_traverse d world).2.2 new hnew]

/-- A pass succeeds where its traversal does, with the report of that. -/
theorem result_of_traversal {d new : Document} {world : σ} {g : Progress σ}
    (h : p.traversal d world = (.ok new, g)) :
    (p.run d world).result
        = .ok { g.report with filesWritten := g.rendering.renderer.filesWritten } ∧
      (p.run d world).world = g.rendering.world ∧ (p.run d world).document = new := by
  obtain ⟨hresult, hworld, hdocument⟩ := p.run_eq_traverse d world
  rw [h] at hresult hworld hdocument
  exact ⟨hresult, hworld, hdocument new rfl⟩

/-- A pass that succeeds is a traversal that does. -/
theorem traversal_of_result {d : Document} {world : σ} {report : Report}
    (h : (p.run d world).result = .ok report) :
    ∃ g, p.traversal d world = (.ok (p.run d world).document, g) ∧
      report = { g.report with filesWritten := g.rendering.renderer.filesWritten } := by
  obtain ⟨hresult, -, hdocument⟩ := p.run_eq_traverse d world
  rcases htraversal : p.traversal d world with ⟨error | new, g⟩ <;>
    rw [htraversal, h] at hresult
  · cases hresult
  · rw [htraversal] at hdocument
    cases hresult
    exact ⟨g, by rw [hdocument new rfl], rfl⟩

end Pass

end DocumentMath
