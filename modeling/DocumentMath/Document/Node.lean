import DocumentMath.Document.Basic

/-!
# Nodes and paths

A node is a block, a list item or a table cell. A path leads to a node from the top of a document,
and each step names a child: a block by its index among the child blocks, an item by its index in a
list, a cell by its row and column. A path does not enter the document in a table cell.

`node?` follows a path, and `update?` changes the node it leads to and nothing else. Both go down
one step at a time, with `child?` and `setChild?`.
-/

namespace DocumentMath

/-- A step from a node to one of its children. -/
inductive Step where
  | block (index : Nat)
  | item (index : Nat)
  | cell (row column : Nat)
  deriving DecidableEq, Repr

/-- The steps from the top of a document to a node. -/
abbrev NodePath := List Step

namespace NodePath

/-- A step as text. -/
def stepText : Step → String
  | .block index => toString index
  | .item index => "item[" ++ toString index ++ "]"
  | .cell row column => "cell[" ++ toString row ++ "," ++ toString column ++ "]"

/-- A path as text. -/
def text (p : NodePath) : String :=
  "/".intercalate (p.map stepText)

end NodePath

/-- What a path may lead to. -/
inductive Node where
  | block (b : Block)
  | item (i : ListItem)
  | cell (c : TableCell)

namespace Node

/-- The child a step leads to. -/
def child? : Node → Step → Option Node
  | block (.list l), .item index => l.items[index]?.map item
  | block (.table t), .cell row column => do
    let r ← t.rows[row]?
    let c ← r.cells[column]?
    pure (cell c)
  | block b, .block index => do
    let children ← b.children?
    let child ← children[index]?
    pure (block child)
  | item i, .block index => i.blocks[index]?.map block
  | _, _ => none

/-- The node with another child where a step leads to one. The child has to be of the kind the step
leads to. -/
def setChild? : Node → Step → Node → Option Node
  | block (.list l), .item index, item i =>
    some (block (.list { l with items := l.items.set index i }))
  | block (.table t), .cell row column, cell c =>
    some (block (.table
      { t with rows := t.rows.modify row fun r ↦ { r with cells := r.cells.set column c } }))
  | block b, .block index, block child => do
    let children ← b.children?
    let changed ← b.setChildren? (children.set index child)
    pure (block changed)
  | item i, .block index, block child =>
    some (item { i with blocks := i.blocks.set index child })
  | _, _, _ => none

/-- The node that steps lead to. -/
def descend? : Node → List Step → Option Node
  | n, [] => some n
  | n, s :: steps => (n.child? s).bind (·.descend? steps)

/-- The node with a change at the node that steps lead to. There is none if the steps lead nowhere
or the change is refused. -/
def update? (change : Node → Option Node) : Node → List Step → Option Node
  | n, [] => change n
  | n, s :: steps => do
    let child ← n.child? s
    let changed ← child.update? change steps
    n.setChild? s changed

/-- The block that a node is. -/
def block? : Node → Option Block
  | block b => some b
  | _ => none

end Node

namespace Document

/-- The node a path leads to. -/
def node? (d : Document) : NodePath → Option Node
  | .block index :: steps => d.blocks[index]?.bind fun b ↦ (Node.block b).descend? steps
  | _ => none

/-- The document with a change at the node a path leads to. There is none if the path leads nowhere
or the change is refused; a block can be changed into another block only. -/
def update? (change : Node → Option Node) (d : Document) : NodePath → Option Document
  | .block index :: steps => do
    let b ← d.blocks[index]?
    let changed ← (Node.block b).update? change steps
    let changedBlock ← changed.block?
    pure { d with blocks := d.blocks.set index changedBlock }
  | _ => none

end Document

end DocumentMath
