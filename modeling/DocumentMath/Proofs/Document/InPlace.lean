import DocumentMath.Document.InPlace
import DocumentMath.Proofs.Document.Apart
import DocumentMath.Proofs.Document.Texts

/-!
# Reading and editing agree

A path is followed in two ways, to look up a node and to change it. Both lead to the same node
(`Document.update?_eq_some_iff`), and so an edit in place succeeds exactly where there is something
to read, can be read afterwards, and touches nothing else (`Document.edits_agree_with_lookups`). To
set a text is a change that does not touch what is below it (`Node.isLocal_setText?`), so that two
texts can be set in any order, also if one of them is the title of a section around the other.
-/

namespace DocumentMath

namespace Subtree

/-- A change of nodes. -/
def onNode (g : Node → Option Node) (t : Subtree) : Option Subtree :=
  (t.node?.bind g).map node

theorem exists_of_onNode {g : Node → Option Node} {t t' : Subtree} (h : onNode g t = some t') :
    ∃ n n', g n = some n' ∧ t = node n ∧ t' = node n' := by
  obtain ⟨n', hn', rfl⟩ := Option.map_eq_some_iff.mp h
  obtain ⟨n, hn, hg⟩ := Option.bind_eq_some_iff.mp hn'
  cases t with
  | document d => cases hn
  | node m =>
    cases hn
    exact ⟨n, n', hg, rfl, rfl⟩

theorem update?_onNode (g : Node → Option Node) (d : Document) (path : NodePath) :
    (document d).update? (onNode g) (Move.toNode [] path) = (d.update? g path).map document :=
  update?_document (fun _ ↦ rfl) (fun _ ↦ rfl) d path

/-- To set a text does not touch what is below it. -/
theorem isLocal_setText? (kind : CandidateKind) (text : String) :
    IsLocal (onNode (kind.setText? text)) where
  sort h := by
    obtain ⟨n, n', hn, rfl, rfl⟩ := exists_of_onNode h
    exact (Node.replaces_of_setText? hn).sort
  child h hchild := by
    obtain ⟨n, n', hn, rfl, rfl⟩ := exists_of_onNode h
    exact isChild_of_child? (((Node.replaces_of_setText? hn).below _).trans
      (child?_of_isChild hchild))
  setChild := by
    intro t t' t₁ x c c' h hchild hset
    obtain ⟨n, n', hn, rfl, rfl⟩ := exists_of_onNode h
    unfold CandidateKind.setText? at hn
    split at hn <;> cases hn <;> cases hchild <;> obtain ⟨d⟩ | ⟨b | i | c⟩ := c' <;> cases hset <;>
      rfl

end Subtree

/-- The moves to a node of the document itself go along the path. -/
theorem Move.toNode_prefix_iff {p q : NodePath} : toNode [] p <+: toNode [] q ↔ p <+: q :=
  List.prefix_map_iff_of_injective fun _ _ ↦ step.inj

namespace Document

variable {d d' d₁ d₂ : Document} {c c' : Candidate} {path : NodePath} {text text' : String}

/-- An update that succeeds changes the node that the path leads to. -/
theorem update?_eq_some_iff {g : Node → Option Node} :
    d.update? g path = some d' ↔ ∃ n n', g n = some n' ∧ Changed [] path n n' d d' := by
  constructor
  · intro h
    obtain ⟨m, m', hm, hchanged⟩ := Subtree.exists_changed_of_update?
      ((Subtree.update?_onNode g d path).trans (congrArg _ h))
    obtain ⟨n, n', hn, rfl, rfl⟩ := Subtree.exists_of_onNode hm
    exact ⟨n, n', hn, hchanged⟩
  · rintro ⟨n, n', hn, hchanged⟩
    exact hchanged.updateIn?_eq hn

/-! ### Texts -/

/-- There is no text to set where none is read. -/
theorem setText_of_none (h : d.textOf? c = none) (text : String) :
    d.setText c text = (.error c.missing, d) := by
  have hnone : d.setText? c text = none := by
    rw [Option.eq_none_iff_forall_ne_some]
    intro d' hd'
    obtain ⟨n, n', hn, hchanged⟩ := update?_eq_some_iff.mp hd'
    obtain ⟨old, hold⟩ := Node.exists_textOf?_of_setText? hn
    have hnode : d.node? c.path = some n := hchanged.before
    rw [textOf?, hnode, Option.bind_some, hold] at h
    cases h
  rw [setText, hnone]

/-- Where a text is read, one can be set: a single node is changed. -/
theorem exists_setText (h : (d.textOf? c).isSome) (text : String) :
    ∃ n n' d', c.kind.setText? text n = some n' ∧ Changed [] c.path n n' d d' ∧
      d.setText? c text = some d' ∧ d.setText c text = (.ok (), d') := by
  obtain ⟨old, hold⟩ := Option.isSome_iff_exists.mp h
  obtain ⟨n, hnode, hn⟩ := Option.bind_eq_some_iff.mp hold
  obtain ⟨n', hn'⟩ := Node.exists_setText? hn text
  have hplace : d.nodeIn? [] c.path = some n := hnode
  obtain ⟨d', hchanged⟩ := exists_changed hplace (Node.replaces_of_setText? hn').sort
  have hset : d.setText? c text = some d' := update?_eq_some_iff.mpr ⟨n, n', hn', hchanged⟩
  exact ⟨n, n', d', hn', hchanged, hset, by rw [setText, hset]⟩

theorem fst_setText (d : Document) (c : Candidate) (text : String) :
    (d.setText c text).1 = if (d.textOf? c).isSome then .ok () else .error c.missing := by
  split
  · next h =>
    obtain ⟨-, -, d', -, -, -, hrun⟩ := exists_setText h text
    rw [hrun]
  · next h => rw [setText_of_none (Option.not_isSome_iff_eq_none.mp h)]

theorem setText_eq_ok_iff : (d.setText c text).1 = .ok () ↔ (d.textOf? c).isSome := by
  rw [fst_setText]
  split
  · next h => exact iff_of_true rfl h
  · next h => exact iff_of_false (fun heq ↦ by cases heq) h

theorem setText_eq_error {e : Error} (h : (d.setText c text).1 = .error e) :
    e = c.missing ∧ (d.setText c text).2 = d := by
  rw [fst_setText] at h
  split at h
  · cases h
  · next hnone =>
    cases h
    exact ⟨rfl, by rw [setText_of_none (Option.not_isSome_iff_eq_none.mp hnone)]⟩

/-- What a change of a text leaves alone: the texts of all other candidates. -/
theorem Changed.textOf?_candidate {n n' : Node} (h : Changed [] c.path n n' d d')
    (hn : c.kind.setText? text n = some n') (hne : c' ≠ c) : d'.textOf? c' = d.textOf? c' := by
  by_cases hpath : c'.path = c.path
  · -- the candidate is of another kind at the same place
    have hkind : c'.kind ≠ c.kind := fun hkind ↦ by
      cases c; cases c'; cases hpath; cases hkind
      exact hne rfl
    have hbefore : d.node? c'.path = some n := hpath ▸ h.before
    have hafter : d'.node? c'.path = some n' := hpath ▸ h.after
    rw [textOf?, textOf?, hbefore, hafter]
    exact CandidateKind.textOf?_setText?_ne hn hkind
  · have hother : (d'.nodeIn? [] c'.path).bind c'.kind.textOf?
        = (d.nodeIn? [] c'.path).bind c'.kind.textOf? :=
      h.textOf?_eq (Node.replaces_of_setText? hn) (fun heq ↦ hpath (Move.toNode_inj heq).2) c'.kind
    exact hother

theorem textOf?_setText_ne (hne : c' ≠ c) (text : String) :
    (d.setText c text).2.textOf? c' = d.textOf? c' := by
  cases hread : d.textOf? c with
  | none => rw [setText_of_none hread]
  | some old =>
    obtain ⟨n, n', d', hn, hchanged, -, hrun⟩ := exists_setText (Option.isSome_of_mem hread) text
    rw [hrun]
    exact hchanged.textOf?_candidate hn hne

theorem exists_setText?_both (hne : c'.path ≠ c.path) (h : d.setText? c text = some d₁)
    (h' : d.setText? c' text' = some d₂) :
    ∃ d₃, d₁.setText? c' text' = some d₃ ∧ d₂.setText? c text = some d₃ := by
  have hmoves : Move.toNode [] c.path ≠ Move.toNode [] c'.path := fun heq ↦
    hne (Move.toNode_inj heq).2.symm
  obtain ⟨t, ht, ht'⟩ := Subtree.exists_update?_both (Subtree.isLocal_setText? c.kind text)
    (Subtree.isLocal_setText? c'.kind text') hmoves
    ((Subtree.update?_onNode _ d c.path).trans (congrArg _ h))
    ((Subtree.update?_onNode _ d c'.path).trans (congrArg _ h'))
  rw [Subtree.update?_onNode] at ht ht'
  obtain ⟨d₃, hd₃, rfl⟩ := Option.map_eq_some_iff.mp ht
  obtain ⟨d₄, hd₄, heq⟩ := Option.map_eq_some_iff.mp ht'
  cases heq
  exact ⟨d₃, hd₃, hd₄⟩

/-- Two texts at different paths can be set in either order. -/
theorem setText_comm (hne : c'.path ≠ c.path) (text text' : String) :
    ((d.setText c text).2.setText c' text').2 = ((d.setText c' text').2.setText c text).2 := by
  have hne' : c' ≠ c := fun heq ↦ hne (congrArg _ heq)
  cases hread : d.textOf? c with
  | none =>
    have hother := (textOf?_setText_ne (d := d) hne'.symm text').trans hread
    rw [setText_of_none hread, setText_of_none hother]
  | some old =>
    cases hread' : d.textOf? c' with
    | none =>
      have hother := (textOf?_setText_ne (d := d) hne' text).trans hread'
      rw [setText_of_none hread', setText_of_none hother]
    | some old' =>
      obtain ⟨-, -, d₁, -, -, hset, hrun⟩ := exists_setText (Option.isSome_of_mem hread) text
      obtain ⟨-, -, d₂, -, -, hset', hrun'⟩ := exists_setText (Option.isSome_of_mem hread') text'
      obtain ⟨d₃, hd₁, hd₂⟩ := exists_setText?_both hne hset hset'
      rw [hrun, hrun', setText, hd₁, setText, hd₂]

/-! ### Blocks -/

theorem block?_eq_some_iff {b : Block} :
    d.block? path = some b ↔ d.node? path = some (.block b) := by
  rw [block?, Option.bind_eq_some_iff]
  constructor
  · rintro ⟨n, hn, hb⟩
    cases n with
    | block b' =>
      cases hb
      exact hn
    | _ => cases hb
  · exact fun h ↦ ⟨_, h, rfl⟩

/-- There is no block to exchange where none is found. -/
theorem replaceBlock_of_none (h : d.block? c.path = none) (b : Block) :
    d.replaceBlock c b = (.error c.missing, d) := by
  rw [replaceBlock, h]

/-- A block that is found can be exchanged. -/
theorem exists_replaceBlock {old : Block} (h : d.node? c.path = some (.block old)) (b : Block) :
    ∃ d', Changed [] c.path (.block old) (.block b) d d' ∧ d.replaceBlock c b = (.ok old, d') := by
  have hplace : d.nodeIn? [] c.path = some (.block old) := h
  have hsort : (Node.block old).SameSort (.block b) := trivial
  obtain ⟨d', hchanged⟩ := exists_changed hplace hsort
  have hreplace : d.replaceBlock? c.path b = some d' :=
    update?_eq_some_iff.mpr ⟨_, _, rfl, hchanged⟩
  exact ⟨d', hchanged, by rw [replaceBlock, block?_eq_some_iff.mpr h, hreplace]⟩

theorem replaceBlock_eq_ok_iff {b old : Block} :
    (d.replaceBlock c b).1 = .ok old ↔ d.node? c.path = some (.block old) := by
  constructor
  · intro h
    cases hblock : d.block? c.path with
    | none =>
      rw [replaceBlock_of_none hblock] at h
      cases h
    | some found =>
      have hnode := block?_eq_some_iff.mp hblock
      obtain ⟨d', -, hrun⟩ := exists_replaceBlock hnode b
      rw [hrun] at h
      cases h
      exact hnode
  · intro h
    obtain ⟨d', -, hrun⟩ := exists_replaceBlock h b
    rw [hrun]

theorem replaceBlock_eq_error {b : Block} {e : Error} (h : (d.replaceBlock c b).1 = .error e) :
    e = c.missing ∧ (d.replaceBlock c b).2 = d := by
  cases hblock : d.block? c.path with
  | none =>
    rw [replaceBlock_of_none hblock] at h ⊢
    cases h
    exact ⟨rfl, rfl⟩
  | some old =>
    rw [replaceBlock_eq_ok_iff.mpr (block?_eq_some_iff.mp hblock)] at h
    cases h

/-- A change leaves alone the nodes that are neither around its place nor below it. -/
theorem Changed.node?_of_apart {n n' : Node} {place : NodePath}
    (h : Changed [] place n n' d d') (haround : ¬path <+: place) (hbelow : ¬place <+: path) :
    d'.node? path = d.node? path := by
  have heq : d'.nodeIn? [] path = d.nodeIn? [] path := by
    rw [nodeIn?_eq, nodeIn?_eq, Subtree.Changed.descend?_of_apart h
      (mt Move.toNode_prefix_iff.mp haround) (mt Move.toNode_prefix_iff.mp hbelow)]
  exact heq

/-! ### Agreement -/

/-- **Reading and editing agree.** A text is set exactly where one is read. It is read afterwards;
all other candidates keep their texts, and all nodes but those around it, and its own, are as they
were. Two texts at different paths can be set in either order. A block is exchanged exactly where
the path leads to one, and it is returned; the new one stands in its place, and nothing but that and
the nodes around it is another. An edit that fails leaves the document as it is. -/
theorem edits_agree_with_lookups (d : Document) (c : Candidate) :
    (∀ text,
      ((d.setText c text).1 = .ok () ↔ (d.textOf? c).isSome) ∧
      ((d.setText c text).1 = .ok () →
        (d.setText c text).2.textOf? c = some text ∧
        (∀ c', c' ≠ c → (d.setText c text).2.textOf? c' = d.textOf? c') ∧
        ∀ path, ¬path <+: c.path → (d.setText c text).2.node? path = d.node? path) ∧
      (∀ e, (d.setText c text).1 = .error e → e = c.missing ∧ (d.setText c text).2 = d) ∧
      ∀ c' text', c'.path ≠ c.path →
        ((d.setText c text).2.setText c' text').1 = (d.setText c' text').1 ∧
        ((d.setText c text).2.setText c' text').2 = ((d.setText c' text').2.setText c text).2) ∧
    ∀ b,
      (∀ old, (d.replaceBlock c b).1 = .ok old ↔ d.node? c.path = some (.block old)) ∧
      (∀ old, (d.replaceBlock c b).1 = .ok old →
        (d.replaceBlock c b).2.node? c.path = some (.block b) ∧
        ∀ path, ¬path <+: c.path → ¬c.path <+: path →
          (d.replaceBlock c b).2.node? path = d.node? path) ∧
      ∀ e, (d.replaceBlock c b).1 = .error e → e = c.missing ∧ (d.replaceBlock c b).2 = d := by
  constructor
  · intro text
    refine ⟨setText_eq_ok_iff, fun hok ↦ ?_, fun e ↦ setText_eq_error, fun c' text' hne ↦ ?_⟩
    · obtain ⟨n, n', d', hn, hchanged, -, hrun⟩ := exists_setText (setText_eq_ok_iff.mp hok) text
      have hnode : d'.node? c.path = some n' := hchanged.after
      refine ⟨?_, fun c' hne ↦ textOf?_setText_ne hne text, fun path haround ↦ ?_⟩
      · rw [hrun, textOf?, hnode]
        exact CandidateKind.textOf?_setText? hn
      · rw [hrun]
        have hmoves : ¬Move.toNode [] path <+: Move.toNode [] c.path :=
          mt Move.toNode_prefix_iff.mp haround
        exact hchanged.nodeIn?_of_apart (Node.replaces_of_setText? hn) hmoves
    · have hother : c' ≠ c := fun heq ↦ hne (congrArg _ heq)
      refine ⟨?_, setText_comm hne text text'⟩
      rw [fst_setText, fst_setText, textOf?_setText_ne hother]
  · intro b
    refine ⟨fun old ↦ replaceBlock_eq_ok_iff, fun old hold ↦ ?_, fun e ↦ replaceBlock_eq_error⟩
    obtain ⟨d', hchanged, hrun⟩ := exists_replaceBlock (replaceBlock_eq_ok_iff.mp hold) b
    rw [hrun]
    exact ⟨hchanged.after, fun path ↦ hchanged.node?_of_apart⟩

/-- A section with a text and a list in it. -/
def sectionWithList : Document :=
  ⟨.empty,
    [.sect ⟨none, 1, "title",
      [.prose ⟨none, none, "paragraph", ["one", "two"], .normal⟩,
        .list ⟨none, none, .unordered '*', [⟨"item", []⟩]⟩], some "title"⟩]⟩

/-- The title of the section and the text below it can be set in either order, but neither is a list
item; and the text can be exchanged for a block, but a list item cannot. -/
theorem edits_agree_with_lookups_sectionWithList :
    let d := sectionWithList
    let title : Candidate := ⟨[.block 0], .sectionTitle⟩
    let prose : Candidate := ⟨[.block 0, .block 0], .prose⟩
    let list : NodePath := [.block 0, .block 1]
    let wrong : Candidate := ⟨[.block 0, .block 0], .listItem⟩
    let item : Candidate := ⟨[.block 0, .block 1, .item 0], .listItem⟩
    let image : Block := .image ⟨none, none, "x.svg", "", none, none, none⟩
    (d.setText title "new").1 = .ok () ∧ (d.setText title "new").2.textOf? title = some "new" ∧
      (d.setText title "new").2.textOf? prose = d.textOf? prose ∧
      (d.setText title "new").2.node? list = d.node? list ∧
      ((d.setText title "new").2.setText prose "a\nb").2
        = ((d.setText prose "a\nb").2.setText title "new").2 ∧
      (d.setText wrong "new").2 = d ∧
      (d.replaceBlock prose image).2.node? prose.path = some (.block image) ∧
      (d.replaceBlock prose image).2.node? list = d.node? list ∧
      (d.replaceBlock item image).2 = d := by
  obtain ⟨htexts, -⟩ := edits_agree_with_lookups sectionWithList ⟨[.block 0], .sectionTitle⟩
  obtain ⟨hok, hset, -, hcomm⟩ := htexts "new"
  obtain ⟨hread, hothers, hnodes⟩ := hset rfl
  obtain ⟨-, hblocks⟩ := edits_agree_with_lookups sectionWithList ⟨[.block 0, .block 0], .prose⟩
  obtain ⟨hfound, hreplaced, -⟩ := hblocks (.image ⟨none, none, "x.svg", "", none, none, none⟩)
  obtain ⟨hnew, hapart⟩ := hreplaced _ ((hfound _).mpr rfl)
  obtain ⟨hwrong, -⟩ := edits_agree_with_lookups sectionWithList ⟨[.block 0, .block 0], .listItem⟩
  obtain ⟨-, hitem⟩ :=
    edits_agree_with_lookups sectionWithList ⟨[.block 0, .block 1, .item 0], .listItem⟩
  refine ⟨rfl, hread, hothers _ (by decide), hnodes _ (by decide), ?_, ?_, hnew,
    hapart _ (by decide) (by decide), ?_⟩
  · exact (hcomm ⟨[.block 0, .block 0], .prose⟩ "a\nb" (by decide)).2
  · exact ((hwrong "new").2.2.1 _ rfl).2
  · exact ((hitem _).2.2 _ rfl).2

end Document

end DocumentMath
