import DocumentMath.Document.Decode
import DocumentMath.Proofs.Json.Layout
import Mathlib.Data.List.Nodup

/-!
# Documents are decoded as they were encoded

A record is decoded field by field, so an object that holds each field once under its name is
decoded to the values of the fields (`fields?_object`). From there each part of a document is put
together again from its own fields, and blocks by induction on how they nest
(`Block.IsFresh.ofFieldsWith?`).

The converted title of a section is not encoded. A tree of which no converted title is known is
fresh, and it is the fresh ones that are decoded to just what they were.
-/

namespace DocumentMath

/-! ### Fresh documents -/

/-- A block in which no section knows its converted title, at any depth and also in the documents of
table cells. -/
inductive Block.IsFresh : Block → Prop
  | math (b : MathBlock) : IsFresh (.math b)
  | prose (b : Prose) : IsFresh (.prose b)
  | list {b : ItemList} (h : ∀ item ∈ b.items, ∀ c ∈ item.blocks, IsFresh c) : IsFresh (.list b)
  | sect {b : Section} (hconverted : b.converted = none) (h : ∀ c ∈ b.blocks, IsFresh c) :
    IsFresh (.sect b)
  | table {b : Table} (h : ∀ row ∈ b.rows, ∀ cell ∈ row.cells, ∀ d ∈ cell.inner,
      ∀ c ∈ d.blocks, IsFresh c) : IsFresh (.table b)
  | compound {b : CompoundBlock} (h : ∀ c ∈ b.blocks, IsFresh c) : IsFresh (.compound b)
  | image (b : ImageBlock) : IsFresh (.image b)
  | passthrough (b : PassthroughBlock) : IsFresh (.passthrough b)

/-- A document in which no section knows its converted title. -/
def Document.IsFresh (d : Document) : Prop :=
  ∀ b ∈ d.blocks, b.IsFresh

/-! ### Lists -/

theorem blocksToJson_eq_map (bs : List Block) : blocksToJson bs = bs.map Block.toJson := by
  induction bs with
  | nil => rfl
  | cons b bs ih => rw [blocksToJson, ih, List.map_cons]

theorem itemsToJson_eq_map (items : List ListItem) :
    itemsToJson items = items.map ListItem.toJson := by
  induction items with
  | nil => rfl
  | cons item items ih => rw [itemsToJson, ih, List.map_cons]

/-- A row of a table as an object. -/
def TableRow.toJson (r : TableRow) : Json :=
  .object [("cells", .array (cellsToJson r.cells))]

theorem rowsToJson_eq_map (rows : List TableRow) : rowsToJson rows = rows.map TableRow.toJson := by
  induction rows with
  | nil => rfl
  | cons row rows ih =>
    obtain ⟨cells⟩ := row
    rw [rowsToJson, ih, List.map_cons, TableRow.toJson]

theorem cellsToJson_eq_map (cells : List TableCell) :
    cellsToJson cells = cells.map TableCell.toJson := by
  induction cells with
  | nil => rfl
  | cons cell cells ih => rw [cellsToJson, ih, List.map_cons]

/-- What is undone for every member is undone for the list. -/
theorem mapM_map_of_inverse {α β : Type} {f : β → Option α} {g : α → β} {as : List α}
    (h : ∀ a ∈ as, f (g a) = some a) : (as.map g).mapM f = some as := by
  induction as with
  | nil => rfl
  | cons a as ih =>
    rw [List.forall_mem_cons] at h
    rw [List.map_cons, List.mapM_cons, h.1, ih h.2]
    rfl

/-! ### Attributes -/

namespace Attributes

theorem insertEntry_of_lt {name value : String} {es : List (String × String)}
    (h : ∀ e ∈ es, e.1 < name) : insertEntry name value es = es ++ [(name, value)] := by
  induction es with
  | nil => rfl
  | cons e es ih =>
    rw [List.forall_mem_cons] at h
    have hnot : ¬ name < e.1 := fun hlt ↦ String.lt_irrefl _ (String.lt_trans hlt h.1)
    have hne : name ≠ e.1 := by
      intro heq
      have hlt := h.1
      rw [heq] at hlt
      exact String.lt_irrefl _ hlt
    rw [insertEntry, if_neg hnot, if_neg hne, ih h.2]
    rfl

/-- Entries that are put in in increasing order stay in this order. -/
theorem entries_foldl_insert {es : List (String × String)} {a : Attributes}
    (h : NamesIncrease (a.entries ++ es)) :
    (es.foldl (fun m e ↦ m.insert e.1 e.2) a).entries = a.entries ++ es := by
  induction es generalizing a with
  | nil => exact (List.append_nil _).symm
  | cons e es ih =>
    have hlt : ∀ f ∈ a.entries, f.1 < e.1 := fun f hf ↦
      (List.pairwise_append.mp h).2.2 f hf e List.mem_cons_self
    have hinsert : (a.insert e.1 e.2).entries = a.entries ++ [e] := insertEntry_of_lt hlt
    rw [List.foldl_cons, ih]
    · rw [hinsert, List.append_assoc]
      rfl
    · rw [hinsert, List.append_assoc]
      exact h

theorem ofList_entries (a : Attributes) : ofList a.entries = a := by
  refine Attributes.ext ?_
  have hentries : (ofList a.entries).entries = empty.entries ++ a.entries :=
    entries_foldl_insert (a := empty) a.increasing
  rw [hentries]
  rfl

/-- Attributes are decoded as they were encoded. -/
theorem ofJson?_toJson (a : Attributes) : ofJson? a.toJson = some a := by
  have hentries : (a.entries.map fun e ↦ (e.1, Json.string e.2)).mapM entry? = some a.entries :=
    mapM_map_of_inverse fun _ _ ↦ rfl
  rw [toJson, ofJson?, hentries, Option.map_some, ofList_entries]

end Attributes

/-! ### Records -/

namespace Json

/-- Where no name repeats, each member is found under its name. -/
theorem find?_of_mem {ms : List (String × Json)} (hnodup : (ms.map Prod.fst).Nodup)
    {m : String × Json} (h : m ∈ ms) : ms.find? (·.1 == m.1) = some m := by
  induction ms with
  | nil => cases h
  | cons m' ms ih =>
    obtain ⟨hname, hrest⟩ := List.nodup_cons.mp hnodup
    rcases List.mem_cons.mp h with rfl | hmem
    · exact List.find?_cons_of_pos (beq_self_eq_true m.1)
    · have hne : ¬ (m'.1 == m.1) = true := fun heq ↦
        hname (eq_of_beq heq ▸ List.mem_map_of_mem hmem)
      have hfind : (m' :: ms).find? (·.1 == m.1) = ms.find? (·.1 == m.1) :=
        List.find?_cons_of_neg hne
      rw [hfind, ih hrest hmem]

/-- An object that holds each field once, in order, is decoded to their values. -/
theorem fields?_object {names : List String} {ms : List (String × Json)}
    (hnames : ms.map Prod.fst = names) (hnodup : names.Nodup) :
    fields? names (.object ms) = some (ms.map fun m ↦ some m.2) := by
  subst hnames
  have hall : (ms.map Prod.fst).all (fun name ↦ (ms.filter (·.1 == name)).length ≤ 1) = true := by
    rw [List.all_eq_true]
    intro name _
    have hcount : ms.countP (·.1 == name) = (ms.map Prod.fst).count name := by
      rw [List.count, List.countP_map]
      rfl
    rw [← List.countP_eq_length_filter, hcount, decide_eq_true_iff]
    exact List.nodup_iff_count_le_one.mp hnodup name
  rw [fields?, if_pos hall, List.map_map]
  refine congrArg some (List.map_congr_left fun m hm ↦ ?_)
  rw [Function.comp_apply, find?_of_mem hnodup hm]
  rfl

/-- The type is taken off an object that begins with it. -/
theorem tagged?_object {names : List String} {tag : String} {ms : List (String × Json)}
    (htag : names.contains tag = true) (hms : ∀ m ∈ ms, m.1 ≠ "type") :
    tagged? names (.object (("type", .string tag) :: ms)) = some (tag, .object ms) := by
  have hnone : ms.filter (·.1 == "type") = [] := by
    rw [List.filter_eq_nil_iff]
    exact fun m hm heq ↦ hms m hm (eq_of_beq heq)
  have hall : ms.filter (·.1 != "type") = ms := by
    rw [List.filter_eq_self]
    exact fun m hm ↦ bne_iff_ne.mpr (hms m hm)
  have hfirst : (("type", Json.string tag) :: ms).filter (·.1 == "type")
      = [("type", .string tag)] := by
    rw [List.filter_cons_of_pos (by rfl), hnone]
  have hrest : (("type", Json.string tag) :: ms).filter (·.1 != "type") = ms := by
    rw [List.filter_cons_of_neg (by simp), hall]
  rw [tagged?, hfirst]
  show (tagged?.typeName? names (.string tag)).map (·, object _) = _
  rw [tagged?.typeName?, if_pos htag, hrest]
  rfl

theorem list?_array_map {α : Type} {f : Json → Option α} {g : α → Json} {as : List α}
    (h : ∀ a ∈ as, f (g a) = some a) : list? f (.array (as.map g)) = some as :=
  mapM_map_of_inverse h

@[simp] theorem optional?_ofString? (s? : Option String) :
    optional? string? (some (.ofString? s?)) = some s? := by
  cases s? <;> rfl

@[simp] theorem required?_some {α : Type} (f : Json → Option α) (j : Json) :
    required? f (some j) = f j := rfl

@[simp] theorem withDefault?_some {α : Type} (default : α) (f : Json → Option α) (j : Json) :
    withDefault? default f (some j) = f j := rfl

@[simp] theorem string?_string (s : String) : string? (.string s) = some s := rfl

end Json

open Json

@[simp] theorem byte?_natural (n : UInt8) : byte? (.natural n.toNat) = some n := by
  have hlt : n.toNat < Nat.pow 2 8 := n.toNat_lt
  rw [byte?, naturalBelow?, if_pos hlt, Option.map_some, UInt8.ofNat_toNat]

@[simp] theorem word?_natural (n : UInt32) : word? (.natural n.toNat) = some n := by
  have hlt : n.toNat < Nat.pow 2 32 := n.toNat_lt
  rw [word?, naturalBelow?, if_pos hlt, Option.map_some, UInt32.ofNat_toNat]

@[simp] theorem optional?_ofUInt32? (n? : Option UInt32) :
    optional? word? (some (.ofUInt32? n?)) = some n? := by
  cases n? with
  | none => rfl
  | some n =>
    show (word? (.natural n.toNat)).map some = _
    rw [word?_natural]
    rfl

@[simp] theorem optional?_alignment (a? : Option Alignment) :
    optional? Alignment.ofJson? (some (Alignment.toJson? a?)) = some a? := by
  rcases a? with _ | a
  · rfl
  · cases a <;> rfl

@[simp] theorem CellStyle.ofJson?_tag (style : CellStyle) :
    CellStyle.ofJson? (.string style.tag) = some style := by
  cases style <;> rfl

@[simp] theorem SubstitutionSet.ofJson?_toJson (s : SubstitutionSet) :
    SubstitutionSet.ofJson? s.toJson = some s := by
  have hmember : ∀ sub ∈ s.members,
      chosen? Substitution.all Substitution.tag (.string sub.tag) = some sub := by
    intro sub _
    cases sub <;> rfl
  rw [toJson, ofJson?, list?_array_map hmember]
  rfl

@[simp] theorem ListStyle.ofJson?_toJson (style : ListStyle) :
    ListStyle.ofJson? style.toJson = some style := by
  cases style with
  | ordered start =>
    have htag : tagged? typeNames (ordered start).toJson
        = some ("ordered", .object [("start", .natural start.toNat)]) :=
      tagged?_object (by decide) (by simp)
    have hfields : fields? ["start"] (.object [("start", .natural start.toNat)])
        = some [some (.natural start.toNat)] := fields?_object rfl (by decide)
    simp [ofJson?, htag, hfields]
  | unordered marker =>
    have htag : tagged? typeNames (unordered marker).toJson
        = some ("unordered", .object [("marker", .string (String.singleton marker))]) :=
      tagged?_object (by decide) (by simp)
    have hfields : fields? ["marker"] (.object [("marker", .string (String.singleton marker))])
        = some [some (.string (String.singleton marker))] := fields?_object rfl (by decide)
    simp [ofJson?, htag, hfields, character?]

/-! ### Blocks without other blocks in them -/

/-- The members of the object of a block, without its type. -/
def Block.members : Block → List (String × Json)
  | .math b =>
    [("id", .ofString? b.id), ("title", .ofString? b.title), ("style", .string b.style),
      ("content", .string b.content), ("alt", .ofString? b.alt)]
  | .prose b =>
    [("id", .ofString? b.id), ("title", .ofString? b.title), ("context", .string b.context),
      ("lines", .array (b.lines.map .string)), ("subs", b.subs.toJson)]
  | .list b =>
    [("id", .ofString? b.id), ("title", .ofString? b.title), ("style", b.style.toJson),
      ("items", .array (itemsToJson b.items))]
  | .sect b =>
    [("id", .ofString? b.id), ("level", .natural b.level.toNat), ("title", .string b.title),
      ("blocks", .array (blocksToJson b.blocks))]
  | .table b =>
    [("id", .ofString? b.id), ("title", .ofString? b.title), ("rows", .array (rowsToJson b.rows)),
      ("header_rows", .natural b.headerRows.toNat)]
  | .compound b =>
    [("id", .ofString? b.id), ("title", .ofString? b.title), ("context", .string b.context),
      ("blocks", .array (blocksToJson b.blocks))]
  | .image b =>
    [("id", .ofString? b.id), ("title", .ofString? b.title), ("target", .string b.target),
      ("alt", .string b.alt), ("align", Alignment.toJson? b.align), ("width", .ofUInt32? b.width),
      ("height", .ofUInt32? b.height)]
  | .passthrough b =>
    [("id", .ofString? b.id), ("title", .ofString? b.title), ("content", .string b.content)]

theorem Block.toJson_eq (b : Block) :
    b.toJson = .object (("type", .string b.kind) :: b.members) := by
  cases b with
  | list b => cases b; rfl
  | sect b => cases b; rfl
  | table b => cases b; rfl
  | compound b => cases b; rfl
  | _ => rfl

theorem Block.name_ne_type (b : Block) : ∀ m ∈ b.members, m.1 ≠ "type" := by
  cases b <;> simp [members]

theorem Block.kind_mem_typeNames (b : Block) : typeNames.contains b.kind = true := by
  cases b <;> rfl

theorem MathBlock.ofJson?_members (b : MathBlock) :
    MathBlock.ofJson? (.object (Block.math b).members) = some b := by
  rw [ofJson?, fields?_object]
  · simp [Block.members]
  · rfl
  · decide

theorem Prose.ofJson?_members (b : Prose) :
    Prose.ofJson? (.object (Block.prose b).members) = some b := by
  have hlines : list? string? (.array (b.lines.map .string)) = some b.lines :=
    list?_array_map fun _ _ ↦ rfl
  rw [ofJson?, fields?_object]
  · simp [Block.members, hlines]
  · rfl
  · decide

theorem ImageBlock.ofJson?_members (b : ImageBlock) :
    ImageBlock.ofJson? (.object (Block.image b).members) = some b := by
  rw [ofJson?, fields?_object]
  · simp [Block.members]
  · rfl
  · decide

theorem PassthroughBlock.ofJson?_members (b : PassthroughBlock) :
    PassthroughBlock.ofJson? (.object (Block.passthrough b).members) = some b := by
  rw [ofJson?, fields?_object]
  · simp [Block.members]
  · rfl
  · decide

/-! ### Containers -/

section Containers

variable {block? : Json → Option Block}

theorem list?_blocksToJson {bs : List Block} (h : ∀ b ∈ bs, block? b.toJson = some b) :
    list? block? (.array (blocksToJson bs)) = some bs := by
  rw [blocksToJson_eq_map]
  exact list?_array_map h

theorem ListItem.ofJsonWith?_toJson {item : ListItem}
    (h : ∀ b ∈ item.blocks, block? b.toJson = some b) :
    ListItem.ofJsonWith? block? item.toJson = some item := by
  obtain ⟨text, blocks⟩ := item
  rw [toJson, ofJsonWith?, fields?_object]
  · simp [list?_blocksToJson h]
  · rfl
  · decide

theorem ItemList.ofJsonWith?_members {b : ItemList}
    (h : ∀ item ∈ b.items, ∀ c ∈ item.blocks, block? c.toJson = some c) :
    ItemList.ofJsonWith? block? (.object (Block.list b).members) = some b := by
  obtain ⟨id, title, style, items⟩ := b
  have hitems : list? (ListItem.ofJsonWith? block?) (.array (itemsToJson items)) = some items := by
    rw [itemsToJson_eq_map]
    exact list?_array_map fun item hitem ↦ ListItem.ofJsonWith?_toJson (h item hitem)
  rw [ofJsonWith?, fields?_object]
  · simp [Block.members, hitems]
  · rfl
  · decide

theorem Section.ofJsonWith?_members {b : Section} (hconverted : b.converted = none)
    (h : ∀ c ∈ b.blocks, block? c.toJson = some c) :
    Section.ofJsonWith? block? (.object (Block.sect b).members) = some b := by
  obtain ⟨id, level, title, blocks, converted⟩ := b
  obtain rfl : converted = none := hconverted
  rw [ofJsonWith?, fields?_object]
  · simp [Block.members, list?_blocksToJson h]
  · rfl
  · decide

theorem CompoundBlock.ofJsonWith?_members {b : CompoundBlock}
    (h : ∀ c ∈ b.blocks, block? c.toJson = some c) :
    CompoundBlock.ofJsonWith? block? (.object (Block.compound b).members) = some b := by
  obtain ⟨id, title, context, blocks⟩ := b
  rw [ofJsonWith?, fields?_object]
  · simp [Block.members, list?_blocksToJson h]
  · rfl
  · decide

theorem Document.ofJsonWith?_toJson {d : Document} (h : ∀ b ∈ d.blocks, block? b.toJson = some b) :
    Document.ofJsonWith? block? d.toJson = some d := by
  obtain ⟨attributes, blocks⟩ := d
  rw [toJson, ofJsonWith?, fields?_object]
  · simp [list?_blocksToJson h, Attributes.ofJson?_toJson]
  · rfl
  · decide

theorem innerToJson_some (d : Document) : innerToJson (some d) = d.toJson := by
  cases d
  rfl

theorem optional?_innerToJson {inner? : Option Document}
    (h : ∀ d ∈ inner?, ∀ b ∈ d.blocks, block? b.toJson = some b) :
    optional? (Document.ofJsonWith? block?) (some (innerToJson inner?)) = some inner? := by
  cases inner? with
  | none => rfl
  | some d =>
    rw [innerToJson_some]
    show (Document.ofJsonWith? block? d.toJson).map some = _
    rw [Document.ofJsonWith?_toJson (h d rfl)]
    rfl

theorem TableCell.ofJsonWith?_toJson {cell : TableCell}
    (h : ∀ d ∈ cell.inner, ∀ b ∈ d.blocks, block? b.toJson = some b) :
    TableCell.ofJsonWith? block? cell.toJson = some cell := by
  obtain ⟨style, text, inner?, rowspan, colspan⟩ := cell
  rw [toJson, ofJsonWith?, fields?_object]
  · simp [optional?_innerToJson h]
  · rfl
  · decide

theorem TableRow.ofJsonWith?_toJson {row : TableRow}
    (h : ∀ cell ∈ row.cells, ∀ d ∈ cell.inner, ∀ b ∈ d.blocks, block? b.toJson = some b) :
    TableRow.ofJsonWith? block? row.toJson = some row := by
  obtain ⟨cells⟩ := row
  have hcells : list? (TableCell.ofJsonWith? block?) (.array (cellsToJson cells))
      = some cells := by
    rw [cellsToJson_eq_map]
    exact list?_array_map fun cell hcell ↦ TableCell.ofJsonWith?_toJson (h cell hcell)
  rw [toJson, ofJsonWith?, fields?_object]
  · simp [hcells]
  · rfl
  · decide

theorem Table.ofJsonWith?_members {b : Table}
    (h : ∀ row ∈ b.rows, ∀ cell ∈ row.cells, ∀ d ∈ cell.inner, ∀ c ∈ d.blocks,
      block? c.toJson = some c) :
    Table.ofJsonWith? block? (.object (Block.table b).members) = some b := by
  obtain ⟨id, title, rows, headerRows⟩ := b
  have hrows : list? (TableRow.ofJsonWith? block?) (.array (rowsToJson rows)) = some rows := by
    rw [rowsToJson_eq_map]
    exact list?_array_map fun row hrow ↦ TableRow.ofJsonWith?_toJson (h row hrow)
  rw [ofJsonWith?, fields?_object]
  · simp [Block.members, hrows]
  · rfl
  · decide

end Containers

/-! ### Blocks -/

namespace Json

theorem depth_lt_of_mem_array {j : Json} {js : List Json} (h : j ∈ js) :
    j.depth < (array js).depth := by
  rw [depth]
  exact Nat.lt_succ_of_le (depthAll_le.mp (Nat.le_refl _) j h)

theorem depth_lt_of_mem_object {name : String} {j : Json} {ms : List (String × Json)}
    (h : (name, j) ∈ ms) : j.depth < (object ms).depth := by
  rw [depth]
  exact Nat.lt_succ_of_le (depthMembers_le.mp (Nat.le_refl _) (name, j) h)

end Json

theorem depth_lt_of_mem_blocks {b : Block} {bs : List Block} (h : b ∈ bs) :
    b.toJson.depth < (Json.array (blocksToJson bs)).depth := by
  rw [blocksToJson_eq_map]
  exact depth_lt_of_mem_array (List.mem_map_of_mem h)

namespace Block

theorem depth_toJson (b : Block) : b.toJson.depth = (Json.object b.members).depth := by
  rw [toJson_eq, depth, depth, depthMembers]
  exact congrArg (· + 1) (Nat.zero_max _)

/-- A block is decoded, if its fields are. -/
theorem ofJsonWithin?_of_ofFieldsWith? {b : Block}
    (h : ∀ levels, (Json.object b.members).depth ≤ levels + 1 →
      ofFieldsWith? (ofJsonWithin? levels) b.kind (.object b.members) = some b)
    {levels : Nat} (hdepth : b.toJson.depth ≤ levels) : ofJsonWithin? levels b.toJson = some b := by
  rw [depth_toJson] at hdepth
  have hpos : 0 < (Json.object b.members).depth := by
    rw [depth]
    exact Nat.succ_pos _
  obtain ⟨levels, rfl⟩ := Nat.exists_eq_succ_of_ne_zero (Nat.ne_zero_of_lt (hpos.trans_le hdepth))
  rw [ofJsonWithin?, toJson_eq, tagged?_object b.kind_mem_typeNames b.name_ne_type]
  exact h levels hdepth

end Block

theorem depth_lt_of_mem_items {items : List ListItem} {item : ListItem} (hitem : item ∈ items)
    {b : Block} (hb : b ∈ item.blocks) :
    b.toJson.depth < (Json.array (itemsToJson items)).depth := by
  have hblock := depth_lt_of_mem_blocks hb
  have hblocks : (Json.array (blocksToJson item.blocks)).depth < item.toJson.depth := by
    obtain ⟨text, blocks⟩ := item
    exact depth_lt_of_mem_object (List.mem_cons_of_mem _ List.mem_cons_self)
  have hitems : item.toJson.depth < (Json.array (itemsToJson items)).depth := by
    rw [itemsToJson_eq_map]
    exact depth_lt_of_mem_array (List.mem_map_of_mem hitem)
  omega

theorem depth_lt_of_mem_rows {rows : List TableRow} {row : TableRow} (hrow : row ∈ rows)
    {cell : TableCell} (hcell : cell ∈ row.cells) {d : Document} (hd : d ∈ cell.inner) {b : Block}
    (hb : b ∈ d.blocks) : b.toJson.depth < (Json.array (rowsToJson rows)).depth := by
  have hblock := depth_lt_of_mem_blocks hb
  have hblocks : (Json.array (blocksToJson d.blocks)).depth < d.toJson.depth :=
    depth_lt_of_mem_object (List.mem_cons_of_mem _ List.mem_cons_self)
  have hinner : d.toJson.depth < cell.toJson.depth := by
    obtain ⟨style, text, inner?, rowspan, colspan⟩ := cell
    obtain rfl : inner? = some d := hd
    rw [← innerToJson_some]
    exact depth_lt_of_mem_object
      (List.mem_cons_of_mem _ (List.mem_cons_of_mem _ List.mem_cons_self))
  have hcells : cell.toJson.depth < row.toJson.depth := by
    have harray : cell.toJson.depth < (Json.array (cellsToJson row.cells)).depth := by
      rw [cellsToJson_eq_map]
      exact depth_lt_of_mem_array (List.mem_map_of_mem hcell)
    exact harray.trans (depth_lt_of_mem_object List.mem_cons_self)
  have hrows : row.toJson.depth < (Json.array (rowsToJson rows)).depth := by
    rw [rowsToJson_eq_map]
    exact depth_lt_of_mem_array (List.mem_map_of_mem hrow)
  omega

/-- **The fields of a fresh block are decoded,** with as many levels left for the blocks inside it
as its members nest deep. -/
theorem Block.IsFresh.ofFieldsWith? {b : Block} (h : b.IsFresh) :
    ∀ levels, (Json.object b.members).depth ≤ levels + 1 →
      Block.ofFieldsWith? (ofJsonWithin? levels) b.kind (.object b.members) = some b := by
  induction h with
  | math b =>
    intro levels _
    exact congrArg (Option.map Block.math) b.ofJson?_members
  | prose b =>
    intro levels _
    exact congrArg (Option.map Block.prose) b.ofJson?_members
  | @list b _ ih =>
    intro levels hdepth
    have hmem : ("items", Json.array (itemsToJson b.items)) ∈ (Block.list b).members := by
      simp [members]
    have hitems := depth_lt_of_mem_object hmem
    refine congrArg (Option.map Block.list) (ItemList.ofJsonWith?_members fun item hitem c hc ↦ ?_)
    have hc' := depth_lt_of_mem_items hitem hc
    exact ofJsonWithin?_of_ofFieldsWith? (ih item hitem c hc) (by omega)
  | @sect b hconverted _ ih =>
    intro levels hdepth
    have hmem : ("blocks", Json.array (blocksToJson b.blocks)) ∈ (Block.sect b).members := by
      simp [members]
    have hblocks := depth_lt_of_mem_object hmem
    refine congrArg (Option.map Block.sect) (Section.ofJsonWith?_members hconverted fun c hc ↦ ?_)
    have hc' := depth_lt_of_mem_blocks hc
    exact ofJsonWithin?_of_ofFieldsWith? (ih c hc) (by omega)
  | @table b _ ih =>
    intro levels hdepth
    have hmem : ("rows", Json.array (rowsToJson b.rows)) ∈ (Block.table b).members := by
      simp [members]
    have hrows := depth_lt_of_mem_object hmem
    refine congrArg (Option.map Block.table)
      (Table.ofJsonWith?_members fun row hrow cell hcell d hd c hc ↦ ?_)
    have hc' := depth_lt_of_mem_rows hrow hcell hd hc
    exact ofJsonWithin?_of_ofFieldsWith? (ih row hrow cell hcell d hd c hc) (by omega)
  | @compound b _ ih =>
    intro levels hdepth
    have hmem : ("blocks", Json.array (blocksToJson b.blocks)) ∈ (Block.compound b).members := by
      simp [members]
    have hblocks := depth_lt_of_mem_object hmem
    refine congrArg (Option.map Block.compound) (CompoundBlock.ofJsonWith?_members fun c hc ↦ ?_)
    have hc' := depth_lt_of_mem_blocks hc
    exact ofJsonWithin?_of_ofFieldsWith? (ih c hc) (by omega)
  | image b =>
    intro levels _
    exact congrArg (Option.map Block.image) b.ofJson?_members
  | passthrough b =>
    intro levels _
    exact congrArg (Option.map Block.passthrough) b.ofJson?_members

/-- The fields of a fresh block are decoded. -/
theorem Block.IsFresh.ofFields? {b : Block} (h : b.IsFresh) :
    Block.ofFields? b.kind (.object b.members) = some b :=
  h.ofFieldsWith? _ (Nat.le_succ _)

/-! ### Numbers -/

namespace Json

@[simp] theorem fits_string (s : String) : (string s).Fits := .string s

@[simp] theorem fits_byte (n : UInt8) : (natural n.toNat).Fits :=
  .natural (n.toNat_lt.trans (by decide))

@[simp] theorem fits_word (n : UInt32) : (natural n.toNat).Fits :=
  .natural (n.toNat_lt.trans (by decide))

@[simp] theorem fits_ofString? (s? : Option String) : (ofString? s?).Fits := by
  cases s? with
  | none => exact .null
  | some s => exact .string s

@[simp] theorem fits_ofUInt32? (n? : Option UInt32) : (ofUInt32? n?).Fits := by
  cases n? with
  | none => exact .null
  | some n => exact fits_word n

theorem fits_array_map {α : Type} {f : α → Json} {as : List α} (h : ∀ a ∈ as, (f a).Fits) :
    (array (as.map f)).Fits := by
  refine .array fun j hj ↦ ?_
  obtain ⟨a, ha, rfl⟩ := List.mem_map.mp hj
  exact h a ha

end Json

@[simp] theorem Alignment.fits_toJson? (a? : Option Alignment) : (Alignment.toJson? a?).Fits := by
  cases a? with
  | none => exact .null
  | some a => exact .string _

@[simp] theorem SubstitutionSet.fits_toJson (s : SubstitutionSet) : s.toJson.Fits :=
  fits_array_map fun _ _ ↦ .string _

@[simp] theorem ListStyle.fits_toJson (style : ListStyle) : style.toJson.Fits := by
  cases style with
  | ordered start => exact .object (by simp)
  | unordered marker => exact .object (by simp)

@[simp] theorem Attributes.fits_toJson (a : Attributes) : a.toJson.Fits := by
  refine .object fun m hm ↦ ?_
  obtain ⟨e, -, rfl⟩ := List.mem_map.mp hm
  exact .string _

theorem fits_blocksToJson {bs : List Block} (h : ∀ b ∈ bs, b.toJson.Fits) :
    (Json.array (blocksToJson bs)).Fits := by
  rw [blocksToJson_eq_map]
  exact fits_array_map h

theorem ListItem.fits_toJson {item : ListItem} (h : ∀ b ∈ item.blocks, b.toJson.Fits) :
    item.toJson.Fits := by
  obtain ⟨text, blocks⟩ := item
  exact .object (by simp [fits_blocksToJson h])

theorem Document.fits_toJson {d : Document} (h : ∀ b ∈ d.blocks, b.toJson.Fits) :
    d.toJson.Fits :=
  .object (by simp [fits_blocksToJson h])

theorem TableCell.fits_toJson {cell : TableCell}
    (h : ∀ d ∈ cell.inner, ∀ b ∈ d.blocks, b.toJson.Fits) : cell.toJson.Fits := by
  obtain ⟨style, text, inner?, rowspan, colspan⟩ := cell
  have hinner : (innerToJson inner?).Fits := by
    cases inner? with
    | none => exact .null
    | some d =>
      rw [innerToJson_some]
      exact d.fits_toJson (h d rfl)
  exact .object (by simp [hinner])

theorem TableRow.fits_toJson {row : TableRow}
    (h : ∀ cell ∈ row.cells, ∀ d ∈ cell.inner, ∀ b ∈ d.blocks, b.toJson.Fits) :
    row.toJson.Fits := by
  have hcells : (Json.array (cellsToJson row.cells)).Fits := by
    rw [cellsToJson_eq_map]
    exact fits_array_map fun cell hcell ↦ cell.fits_toJson (h cell hcell)
  exact .object (by simp [hcells])

/-- The numbers in a document have at most 32 bits. -/
theorem Block.IsFresh.fits {b : Block} (h : b.IsFresh) : b.toJson.Fits := by
  induction h with
  | math b => exact .object (by simp)
  | prose b =>
    have hlines : (Json.array (b.lines.map .string)).Fits := fits_array_map fun _ _ ↦ .string _
    exact .object (by simp [hlines])
  | @list b _ ih =>
    have hitems : (Json.array (itemsToJson b.items)).Fits := by
      rw [itemsToJson_eq_map]
      exact fits_array_map fun item hitem ↦ item.fits_toJson (ih item hitem)
    rw [toJson_eq]
    exact .object (by simp [members, hitems])
  | @sect b _ _ ih =>
    rw [toJson_eq]
    exact .object (by simp [members, fits_blocksToJson ih])
  | @table b _ ih =>
    have hrows : (Json.array (rowsToJson b.rows)).Fits := by
      rw [rowsToJson_eq_map]
      exact fits_array_map fun row hrow ↦ row.fits_toJson (ih row hrow)
    rw [toJson_eq]
    exact .object (by simp [members, hrows])
  | @compound b _ ih =>
    rw [toJson_eq]
    exact .object (by simp [members, fits_blocksToJson ih])
  | image b => exact .object (by simp)
  | passthrough b => exact .object (by simp)

theorem Block.IsFresh.fits_members {b : Block} (h : b.IsFresh) : ∀ m ∈ b.members, m.2.Fits := by
  have hfits := h.fits
  rw [toJson_eq] at hfits
  cases hfits with
  | object hmembers => exact (List.forall_mem_cons.mp hmembers).2

end DocumentMath
