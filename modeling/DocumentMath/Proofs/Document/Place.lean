import DocumentMath.Proofs.Document.Subtree

/-!
# Nodes inside of documents

A node of a document inside others is looked up by the paths of the cells that lead to its document
and by its own path there (`Document.nodeIn?`), and a change is made there in the same way
(`Document.updateIn?`). Both are going down the tree by one list of moves: `Document.nodeIn?_eq` and
`Document.updateIn?_eq`. So the laws of subtrees are laws of documents. `Document.Changed` says that
a document is another one with a new node at a place.
-/

namespace DocumentMath

/-! ### Paths as moves -/

namespace Subtree

theorem descend?_node (n : Node) (steps : List Step) :
    (node n).descend? (steps.map .step) = (n.descend? steps).map node := by
  induction steps generalizing n with
  | nil => rfl
  | cons s steps ih =>
    rw [List.map_cons, descend?, child?, Node.descend?]
    cases n.child? s with
    | none => rfl
    | some c => exact ih c

theorem descend?_document (d : Document) (path : NodePath) :
    ((document d).descend? (path.map .step)).bind node? = d.node? path := by
  cases path with
  | nil => rfl
  | cons s steps =>
    cases s with
    | block index =>
      rw [List.map_cons, descend?, child?, Document.node?]
      cases d.blocks[index]? with
      | none => rfl
      | some b =>
        rw [Option.map_some, Option.bind_some, Option.bind_some, descend?_node]
        cases (Node.block b).descend? steps <;> rfl
    | _ => rfl

section Update

variable {f : Subtree → Option Subtree} {g : Node → Option Node}
  (hnode : ∀ n, f (node n) = (g n).map node)
include hnode

theorem update?_node (n : Node) (steps : List Step) :
    (node n).update? f (steps.map .step) = (n.update? g steps).map node := by
  induction steps generalizing n with
  | nil => exact hnode n
  | cons s steps ih =>
    simp only [List.map_cons, update?, child?, Node.update?, Option.bind_eq_bind]
    cases n.child? s with
    | none => rfl
    | some c =>
      simp only [Option.map_some, Option.bind_some, ih c]
      cases c.update? g steps <;> rfl

theorem update?_document (hdocument : ∀ d, f (document d) = none) (d : Document)
    (path : NodePath) :
    (document d).update? f (path.map .step) = (d.update? g path).map document := by
  cases path with
  | nil => exact hdocument d
  | cons s steps =>
    cases s with
    | block index =>
      simp only [List.map_cons, update?, child?, Document.update?, Option.bind_eq_bind]
      cases d.blocks[index]? with
      | none => rfl
      | some b =>
        simp only [Option.map_some, Option.bind_some, update?_node hnode]
        cases (Node.block b).update? g steps with
        | none => rfl
        | some n => cases n <;> rfl
    | _ => rfl

end Update

end Subtree

/-! ### Looking before a change -/

section Look

variable {α : Type} (look : Node → Option α) (change : α → Node → Option Node)

/-- What a change needs to know of its node can be looked up before. -/
theorem Node.update?_bind (n : Node) (steps : List Step) :
    n.update? (fun m ↦ (look m).bind fun a ↦ change a m) steps
      = ((n.descend? steps).bind look).bind fun a ↦ n.update? (change a) steps := by
  induction steps generalizing n with
  | nil => rfl
  | cons s steps ih =>
    rw [Node.update?, Node.descend?]
    cases h : n.child? s with
    | none => rfl
    | some c => simp [ih, Option.bind_assoc, Node.update?, h]

theorem Document.update?_bind (d : Document) (path : NodePath) :
    d.update? (fun m ↦ (look m).bind fun a ↦ change a m) path
      = ((d.node? path).bind look).bind fun a ↦ d.update? (change a) path := by
  cases path with
  | nil => rfl
  | cons s steps =>
    cases s with
    | block index =>
      rw [update?, node?]
      cases h : d.blocks[index]? with
      | none => rfl
      | some b => simp [Node.update?_bind, Option.bind_assoc, update?, h]
    | _ => rfl

end Look

/-! ### Places -/

namespace Move

/-- The moves to the document that paths lead to. -/
def into (within : List NodePath) : List Move :=
  within.flatMap fun path ↦ path.map step ++ [enter]

/-- The moves to a node of the document that paths lead to. -/
def toNode (within : List NodePath) (path : NodePath) : List Move :=
  into within ++ path.map step

theorem into_cons (p : NodePath) (within : List NodePath) :
    into (p :: within) = p.map step ++ enter :: into within := by
  simp [into]

theorem toNode_cons (p : NodePath) (within : List NodePath) (path : NodePath) :
    toNode (p :: within) path = p.map step ++ enter :: toNode within path := by
  simp [toNode, into]

end Move

namespace Document

/-- The node at a path of the document that paths lead to. -/
def nodeIn? (d : Document) (within : List NodePath) (path : NodePath) : Option Node :=
  (d.inside? within).bind (·.node? path)

/-- The document with a change at such a node. -/
def updateIn? (change : Node → Option Node) (d : Document) (within : List NodePath)
    (path : NodePath) : Option Document :=
  d.updateInside? (·.update? change path) within

theorem nodeIn?_cons (d : Document) (p : NodePath) (within : List NodePath) (path : NodePath) :
    d.nodeIn? (p :: within) path = (d.inner? p).bind (·.nodeIn? within path) :=
  Option.bind_assoc _ _ _

theorem updateIn?_cons (change : Node → Option Node) (d : Document) (p : NodePath)
    (within : List NodePath) (path : NodePath) :
    d.updateIn? change (p :: within) path
      = d.update? (fun n ↦ (n.inner?.bind (·.updateIn? change within path)).bind
          (Node.setInner? · n)) p := by
  rw [update?_bind, ← Option.bind_assoc, Option.bind_assoc]
  rfl

/-- Going down through a cell goes on in its document. -/
theorem descend?_enter {α : Type} (d : Document) (path : NodePath) (moves : List Move)
    (result : Subtree → Option α) :
    ((Subtree.document d).descend? (path.map .step ++ .enter :: moves)).bind result
      = (d.inner? path).bind fun inner ↦
        ((Subtree.document inner).descend? moves).bind result := by
  rw [Subtree.descend?_append, inner?, ← Subtree.descend?_document]
  cases (Subtree.document d).descend? (path.map .step) with
  | none => rfl
  | some t =>
    cases t with
    | document d => rfl
    | node n =>
      simp only [Option.bind_some, Subtree.node?, Subtree.descend?, Subtree.child?]
      cases n.inner? <;> rfl

theorem inside?_eq (d : Document) (within : List NodePath) :
    d.inside? within
      = ((Subtree.document d).descend? (Move.into within)).bind Subtree.document? := by
  induction within generalizing d with
  | nil => rfl
  | cons p within ih =>
    rw [Move.into_cons, descend?_enter, inside?]
    simp only [ih]

/-- To look up a node is to go down the tree. -/
theorem nodeIn?_eq (d : Document) (within : List NodePath) (path : NodePath) :
    d.nodeIn? within path
      = ((Subtree.document d).descend? (Move.toNode within path)).bind Subtree.node? := by
  induction within generalizing d with
  | nil => exact (Subtree.descend?_document d path).symm
  | cons p within ih =>
    rw [Move.toNode_cons, descend?_enter, nodeIn?_cons]
    simp only [ih]

theorem descend?_of_nodeIn? {d : Document} {within : List NodePath} {path : NodePath} {n : Node}
    (h : d.nodeIn? within path = some n) :
    (Subtree.document d).descend? (Move.toNode within path) = some (.node n) := by
  rw [nodeIn?_eq] at h
  obtain ⟨t, ht, hn⟩ := Option.bind_eq_some_iff.mp h
  cases t with
  | document d => cases hn
  | node m =>
    cases hn
    exact ht

/-- To change a node is to change a subtree of the tree. -/
theorem updateIn?_eq {f : Subtree → Option Subtree} {g : Node → Option Node}
    (hnode : ∀ n, f (.node n) = (g n).map .node) (hdocument : ∀ d, f (.document d) = none)
    (d : Document) (within : List NodePath) (path : NodePath) :
    (Subtree.document d).update? f (Move.toNode within path)
      = (d.updateIn? g within path).map .document := by
  induction within generalizing d with
  | nil => exact Subtree.update?_document hnode hdocument d path
  | cons p within ih =>
    rw [Move.toNode_cons, Subtree.update?_append, updateIn?_cons]
    refine Subtree.update?_document (fun n ↦ ?_) (fun _ ↦ rfl) d p
    simp only [Subtree.update?, Subtree.child?]
    cases n.inner? with
    | none => rfl
    | some inner =>
      simp only [Option.map_some, Option.bind_eq_bind, Option.bind_some, ih]
      cases inner.updateIn? g within path <;> rfl

end Document

/-! ### Changed documents -/

/-- A node that may take the place of another: it is of the same sort and has the same below it. -/
structure Node.Replaces (n' n : Node) : Prop where
  sort : n.SameSort n'
  below : ∀ x, (Subtree.node n').child? x = (Subtree.node n).child? x
  count : (Subtree.node n').count = (Subtree.node n).count

namespace Document

/-- The second document is the first one with `n'` in the place of the `n` at a place. -/
def Changed (within : List NodePath) (path : NodePath) (n n' : Node) (d d' : Document) : Prop :=
  Subtree.Changed (.node n) (.node n') (Move.toNode within path) (.document d) (.document d')

section Changes

variable {d d' : Document} {within within' : List NodePath} {path path' : NodePath} {n n' : Node}

theorem changed_self (h : d.nodeIn? within path = some n) : d.Changed within path n n d :=
  Subtree.changed_self (descend?_of_nodeIn? h)

/-- A node that is found can be replaced. -/
theorem exists_changed (h : d.nodeIn? within path = some n)
    (hsort : n.SameSort n') : ∃ d', Changed within path n n' d d' := by
  have hsort' : (Subtree.node n).SameSort (.node n') := hsort
  obtain ⟨t, ht⟩ := Subtree.exists_changed (descend?_of_nodeIn? h) hsort'
  cases t with
  | document d' => exact ⟨d', ht⟩
  | node m => exact (ht.sameSort hsort).elim

namespace Changed

variable (h : Changed within path n n' d d')
include h

theorem before : d.nodeIn? within path = some n := by
  rw [nodeIn?_eq, Subtree.Changed.before h]
  rfl

theorem after : d'.nodeIn? within path = some n' := by
  rw [nodeIn?_eq, Subtree.Changed.after h]
  rfl

/-- The change is what the update of the document does. -/
theorem updateIn?_eq {g : Node → Option Node} (hg : g n = some n') :
    d.updateIn? g within path = some d' := by
  have hupdate := Document.updateIn?_eq (f := fun t ↦ (t.node?.bind g).map .node) (g := g)
    (fun _ ↦ rfl) (fun _ ↦ rfl) d within path
  rw [Subtree.Changed.update?_eq h (by simp [Subtree.node?, hg])] at hupdate
  obtain ⟨changed, hchanged, heq⟩ := Option.map_eq_some_iff.mp hupdate.symm
  cases heq
  exact hchanged

variable (hreplaces : n'.Replaces n)
include hreplaces

/-- A node that is not around the change is as it was. -/
theorem nodeIn?_of_apart (hapart : ¬Move.toNode within' path' <+: Move.toNode within path) :
    d'.nodeIn? within' path' = d.nodeIn? within' path' := by
  rw [Document.nodeIn?_eq, Document.nodeIn?_eq,
    Subtree.Changed.descend?_eq h hreplaces.below hapart]

/-- A document keeps its number of blocks. -/
theorem totalBlocks_inside? (within' : List NodePath) :
    (d'.inside? within').map totalBlocks = (d.inside? within').map totalBlocks := by
  rw [inside?_eq, inside?_eq]
  by_cases haround : Move.into within' <+: Move.toNode within path
  · -- the document is around the change, or has been mistaken for the node
    obtain ⟨rest, hrest⟩ := haround
    rw [Changed, ← hrest] at h
    obtain ⟨t, t', ht, ht', hchanged⟩ := Subtree.Changed.of_append h
    have hcount := hchanged.count_eq hreplaces.count
    have hsort := hchanged.sameSort hreplaces.sort
    rw [ht, ht']
    cases t <;> cases t' <;> first | exact hsort.elim | exact congrArg some hcount | rfl
  · rw [Subtree.Changed.descend?_eq h hreplaces.below haround]

end Changed

end Changes

end Document

/-! ### Nodes that may take the place of others -/

namespace Node

theorem Replaces.refl (n : Node) : n.Replaces n where
  sort := by rcases n with _ | _ | _ <;> trivial
  below _ := rfl
  count := rfl

/-- A node with another text. -/
theorem replaces_of_setText? {kind : CandidateKind} {text : String} {n n' : Node}
    (h : kind.setText? text n = some n') : n'.Replaces n := by
  unfold CandidateKind.setText? at h
  split at h <;> cases h <;> refine ⟨trivial, fun x ↦ ?_, ?_⟩
  case h_4.refl.refine_2 s => cases s; rfl
  all_goals first | rfl | rcases x with (_ | _ | _) | _ <;> rfl

/-- Every text can be set. -/
theorem exists_setText? {kind : CandidateKind} {n : Node} {text : String}
    (h : kind.textOf? n = some text) (new : String) : ∃ n', kind.setText? new n = some n' := by
  unfold CandidateKind.textOf? at h
  split at h <;> first | exact ⟨_, rfl⟩ | cases h

/-- A text can be set only where there is one. -/
theorem exists_textOf?_of_setText? {kind : CandidateKind} {text : String} {n n' : Node}
    (h : kind.setText? text n = some n') : ∃ old, kind.textOf? n = some old := by
  unfold CandidateKind.setText? at h
  split at h <;> first | exact ⟨_, rfl⟩ | cases h

end Node

end DocumentMath
