import DocumentMath.Proofs.Document.Sites
import DocumentMath.Proofs.Document.Traversal

/-!
# Texts and changes

A text that has been set at a node is there, and no other text of the document is touched: neither
those at other places, around the node or beside it (`Document.Changed.textOf?_eq`), nor what the
node is when it is seen as a candidate of another kind. The same goes for all that is seen of a node
without the nodes below it (`Node.IsOwn`). The moves to a place tell the place
(`Move.toNode_inj`), so that "other places" can be said in both ways.
-/

namespace DocumentMath

/-! ### The text that is set -/

namespace CandidateKind

variable {kind other : CandidateKind} {text : String} {n n' : Node}

theorem textOf?_of_not_isText (h : kind.isText = false) (n : Node) : kind.textOf? n = none := by
  cases kind
  case mathBlock => rcases n with _ | _ | _ <;> rfl
  case nestedDocument => rcases n with _ | _ | _ <;> rfl
  all_goals cases h

theorem textOf?_setText? (h : kind.setText? text n = some n') : kind.textOf? n' = some text := by
  unfold setText? at h
  split at h <;> cases h
  case h_1 => exact congrArg some (Prose.intercalate_linesOf text)
  all_goals rfl

theorem textOf?_setText?_ne (h : kind.setText? text n = some n') (hne : other ≠ kind) :
    other.textOf? n' = other.textOf? n := by
  unfold setText? at h
  split at h <;> cases h <;> cases other <;> first | rfl | exact absurd rfl hne

end CandidateKind

/-! ### Places -/

namespace Move

/-- Moves to nodes are the same only if the places are. -/
theorem toNode_inj {within within' : List NodePath} {path path' : NodePath}
    (h : toNode within path = toNode within' path') : within = within' ∧ path = path' := by
  have hpath : ∀ {p q : NodePath}, p.map step = q.map step → p = q :=
    fun h ↦ List.map_injective_iff.mpr (fun _ _ ↦ step.inj) h
  have hmem : ∀ {p q : NodePath} {rest : List Move}, p.map step ≠ q.map step ++ enter :: rest :=
    fun {p} {_} {_} h ↦ enter_not_mem p (h ▸ List.mem_append_right _ List.mem_cons_self)
  induction within generalizing within' with
  | nil =>
    cases within' with
    | nil => exact ⟨rfl, hpath h⟩
    | cons p' within' => exact absurd (h.trans (toNode_cons _ _ _)) hmem
  | cons p within ih =>
    cases within' with
    | nil => exact absurd (h.symm.trans (toNode_cons _ _ _)) hmem
    | cons p' within' =>
      rw [toNode_cons, toNode_cons] at h
      -- neither way enters a document before the other does
      rcases enter_cases h with heq | ⟨mid, hmid, -⟩
      · obtain rfl := hpath heq
        obtain ⟨rfl, rfl⟩ := ih (List.cons.inj (List.append_cancel_left h)).2
        exact ⟨rfl, rfl⟩
      · exact absurd hmid hmem

end Move

/-! ### Places elsewhere -/

theorem bind_eq_of_rel {α β : Type} {f : α → Option β} {a b : Option α}
    (h : Option.Rel (fun x y ↦ f y = f x) a b) : b.bind f = a.bind f := by
  cases h with
  | none => rfl
  | some heq => exact heq

/-- What is seen of a node does not depend on what stands below it. -/
def Node.IsOwn {β : Type} (f : Node → Option β) : Prop :=
  ∀ ⦃t t' c c' : Subtree⦄ ⦃x : Move⦄, Subtree.IsChild t x c → t.setChild? x c' = some t' →
    t'.node?.bind f = t.node?.bind f

/-- The block at a node that has no nodes below it, if it may have been put there for a math block,
or is one. -/
def Node.leaf? : Node → Option Block
  | block (.math m) => some (.math m)
  | block (.image i) => some (.image i)
  | block (.passthrough q) => some (.passthrough q)
  | _ => none

theorem Node.block?_of_leaf? {n : Node} {b : Block} (h : n.leaf? = some b) :
    n.block? = some b := by
  unfold leaf? at h
  split at h <;> cases h <;> rfl

/-- To exchange a child leaves the text of a node alone. -/
theorem CandidateKind.isOwn_textOf? (kind : CandidateKind) : Node.IsOwn kind.textOf? := by
  intro t t' c c' x h hset
  cases h <;> obtain ⟨d⟩ | ⟨b | i | c⟩ := c' <;> cases hset <;> cases kind <;> rfl

/-- A node in which a child is exchanged is no leaf, before and after. -/
theorem Node.isOwn_leaf? : Node.IsOwn leaf? := by
  intro t t' c c' x h hset
  cases h <;> obtain ⟨d⟩ | ⟨b | i | c⟩ := c' <;> cases hset <;> rfl

namespace Document.Changed

variable {d d' : Document} {within within' : List NodePath} {path path' : NodePath} {n n' : Node}

/-- A change of a node leaves alone what is seen at other places. -/
theorem bind_nodeIn?_eq {β : Type} {f : Node → Option β} (hf : Node.IsOwn f)
    (h : Changed within path n n' d d') (hreplaces : n'.Replaces n)
    (hne : Move.toNode within' path' ≠ Move.toNode within path) :
    (d'.nodeIn? within' path').bind f = (d.nodeIn? within' path').bind f := by
  rw [nodeIn?_eq, nodeIn?_eq, Option.bind_assoc, Option.bind_assoc]
  refine bind_eq_of_rel ?_
  exact Subtree.Changed.rel_descend? (fun _ ↦ rfl) h hreplaces.below (fun heq ↦ absurd heq hne)
    fun _ _ _ _ _ _ _ _ hchild hset ↦ hf hchild hset

/-- A change of a node leaves the texts at other places alone. -/
theorem textOf?_eq (h : Changed within path n n' d d') (hreplaces : n'.Replaces n)
    (hne : Move.toNode within' path' ≠ Move.toNode within path) (kind : CandidateKind) :
    (d'.nodeIn? within' path').bind kind.textOf? = (d.nodeIn? within' path').bind kind.textOf? :=
  h.bind_nodeIn?_eq kind.isOwn_textOf? hreplaces hne

end Document.Changed

end DocumentMath
