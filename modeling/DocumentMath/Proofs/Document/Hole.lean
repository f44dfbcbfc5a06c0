import DocumentMath.Document.Nested
import DocumentMath.Proofs.Document.Traversal

/-!
# Documents with a hole

A document with a hole is a function that puts something into it. `Hole` says that a place leads to
the hole: looking there gives what was put in, and a change there is a change of what is put in.
Nothing else has to be known of looking up and changing nodes. A hole in a node makes a hole at each
of its children (`Hole.child`), and a hole in a cell makes a hole for a whole document
(`Hole.document`), so that holes are found by going down the tree.
-/

namespace DocumentMath

/-! ### Steps at the end of a path -/

namespace Node

theorem descend?_append (n : Node) (steps : List Step) (s : Step) :
    n.descend? (steps ++ [s]) = (n.descend? steps).bind (·.child? s) := by
  induction steps generalizing n with
  | nil => simp [descend?]
  | cons t steps ih =>
    cases h : n.child? t with
    | none => simp [descend?, h]
    | some c => simp [descend?, h, ih]

theorem update?_append (change : Node → Option Node) (n : Node) (steps : List Step) (s : Step) :
    n.update? change (steps ++ [s]) = n.update? (fun n ↦ n.update? change [s]) steps := by
  induction steps generalizing n with
  | nil => rfl
  | cons t steps ih => simp only [List.cons_append, update?, ih]

end Node

namespace Document

theorem node?_append {d : Document} {path : NodePath} {n : Node} (h : d.node? path = some n)
    (s : Step) : d.node? (path ++ [s]) = n.child? s := by
  unfold node? at h
  split at h
  · next index steps =>
    obtain ⟨b, hb, hn⟩ := Option.bind_eq_some_iff.mp h
    rw [List.cons_append, node?, hb, Option.bind_some, Node.descend?_append, hn, Option.bind_some]
  · cases h

theorem update?_append {d : Document} {path : NodePath} (hpath : path ≠ [])
    (change : Node → Option Node) (s : Step) :
    d.update? change (path ++ [s]) = d.update? (fun n ↦ n.update? change [s]) path := by
  obtain ⟨t, steps, rfl⟩ := List.exists_cons_of_ne_nil hpath
  cases t with
  | block index => simp only [List.cons_append, update?, Node.update?_append]
  | item index => rfl
  | cell row column => rfl

theorem inside?_append (d : Document) (within : List NodePath) (path : NodePath) :
    d.inside? (within ++ [path]) = (d.inside? within).bind (·.inner? path) := by
  induction within generalizing d with
  | nil => simp [inside?]
  | cons p within ih =>
    cases h : d.inner? p with
    | none => simp [inside?, h]
    | some inner => simp [inside?, h, ih]

theorem updateInside?_append (change : Document → Option Document) (d : Document)
    (within : List NodePath) (path : NodePath) :
    d.updateInside? change (within ++ [path])
      = d.updateInside? (fun d ↦ d.updateInside? change [path]) within := by
  induction within generalizing d with
  | nil => rfl
  | cons p within ih => simp only [List.cons_append, updateInside?, ih]

/-- Only the document that is changed matters to a change. -/
theorem updateInside?_congr {d inner : Document} {within : List NodePath}
    {f g : Document → Option Document} (h : d.inside? within = some inner)
    (hfg : f inner = g inner) :
    d.updateInside? f within = d.updateInside? g within := by
  induction within generalizing d with
  | nil =>
    cases h
    exact hfg
  | cons p within ih =>
    obtain ⟨d', hd', hinner⟩ := Option.bind_eq_some_iff.mp h
    simp only [updateInside?, hd', Option.bind_eq_bind, Option.bind_some, ih hinner]

end Document

/-! ### Holes -/

/-- The cells `within` lead to the document that is put into `C`. -/
structure DocumentHole (within : List NodePath) (C : Document → Document) : Prop where
  get : ∀ d, (C d).inside? within = some d
  set : ∀ {d d' : Document} {change : Document → Option Document}, change d = some d' →
    (C d).updateInside? change within = some (C d')

/-- The cells `within` and the path in the document they lead to lead to the node that is put
into `C`. -/
structure Hole {α : Type} (within : List NodePath) (path : NodePath) (node : α → Node)
    (C : α → Document) : Prop where
  get : ∀ x, ((C x).inside? within).bind (·.node? path) = some (node x)
  set : ∀ {x y : α} {change : Node → Option Node}, change (node x) = some (node y) →
    (C x).updateInside? (·.update? change path) within = some (C y)

theorem documentHole_id : DocumentHole [] id where
  get _ := rfl
  set h := h

/-- The place of a block among the blocks of a document. -/
theorem DocumentHole.block {within : List NodePath} {C : Document → Document}
    (h : DocumentHole within C) (attributes : Attributes) (done rest : List Block) :
    Hole within [.block done.length] Node.block fun b ↦ C ⟨attributes, done ++ b :: rest⟩ where
  get b := by
    rw [h.get, Option.bind_some]
    simp [Document.node?, Node.descend?]
  set {x y change} hchange := by
    refine h.set ?_
    simp [Document.update?, Node.update?, hchange, Node.block?]

namespace Hole

variable {α β : Type} {within : List NodePath} {path : NodePath} {node : α → Node}
  {C : α → Document}

theorem path_ne_nil (h : Hole within path node C) (x : α) : path ≠ [] := by
  rintro rfl
  have hx := h.get x
  obtain ⟨d, -, hd⟩ := Option.bind_eq_some_iff.mp hx
  cases hd

/-- The place of a child, where the node is made up around it. -/
theorem child (h : Hole within path node C) {s : Step} {inner : β → Node} (around : β → α)
    (hget : ∀ y, (node (around y)).child? s = some (inner y))
    (hset : ∀ y z, (node (around y)).setChild? s (inner z) = some (node (around z))) :
    Hole within (path ++ [s]) inner (C ∘ around) where
  get y := by
    obtain ⟨d, hd, hnode⟩ := Option.bind_eq_some_iff.mp (h.get (around y))
    rw [Function.comp_apply, hd, Option.bind_some, Document.node?_append hnode, hget]
  set {y z change} hchange := by
    have hpath := h.path_ne_nil (around y)
    simp only [Document.update?_append hpath]
    refine h.set ?_
    simp [Node.update?, hget, hchange, hset]

/-- The place of the document in a cell, where the cell is made up around it. -/
theorem document {C : TableCell → Document} (h : Hole within path Node.cell C)
    (around : Document → TableCell) (hget : ∀ d, (around d).inner = some d)
    (hset : ∀ d d', { around d with inner := some d' } = around d') :
    DocumentHole (within ++ [path]) (C ∘ around) where
  get d := by
    obtain ⟨d₀, hd₀, hnode⟩ := Option.bind_eq_some_iff.mp (h.get (around d))
    rw [Function.comp_apply, Document.inside?_append, hd₀, Option.bind_some, Document.inner?,
      hnode, Option.bind_some, Node.inner?, hget]
  set {d d' change} hchange := by
    obtain ⟨d₀, hd₀, hnode⟩ := Option.bind_eq_some_iff.mp (h.get (around d))
    have hinner : d₀.inner? path = some d := by
      rw [Document.inner?, hnode, Option.bind_some, Node.inner?, hget]
    have hset' : Node.setInner? d' (.cell (around d)) = some (.cell (around d')) := by
      rw [Node.setInner?, hset]
    rw [Function.comp_apply, Document.updateInside?_append, Function.comp_apply, ← h.set hset']
    refine Document.updateInside?_congr hd₀ ?_
    simp [Document.updateInside?, hinner, hchange, Document.setInner?]

end Hole

end DocumentMath
