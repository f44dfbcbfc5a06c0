import DocumentMath.Document.Node

/-!
# Candidates

The candidates of a document are the nodes that may hold equations: math blocks, the texts of prose,
of list items, of table cells and of section titles, and the documents in table cells. Prose counts
only if a converter expands inline equations in it; a literal cell does not count, and neither does
a cell for a document that holds none. `candidates` lists them in document order, each with its
path, and does not enter the documents in table cells.
-/

namespace DocumentMath

/-- The kind of a candidate. -/
inductive CandidateKind where
  | mathBlock
  | prose
  | listItem
  | tableCell
  | sectionTitle
  | nestedDocument
  deriving DecidableEq, Repr

namespace CandidateKind

/-- All kinds. -/
def all : List CandidateKind :=
  [mathBlock, prose, listItem, tableCell, sectionTitle, nestedDocument]

/-- The name of the kind. -/
def name : CandidateKind → String
  | mathBlock => "math block"
  | prose => "prose"
  | listItem => "list item"
  | tableCell => "table cell"
  | sectionTitle => "section title"
  | nestedDocument => "nested document"

/-- Whether a candidate of the kind is a text. -/
def isText : CandidateKind → Bool
  | prose | listItem | tableCell | sectionTitle => true
  | mathBlock | nestedDocument => false

end CandidateKind

/-- A node that may hold equations. -/
structure Candidate where
  path : NodePath
  kind : CandidateKind
  deriving DecidableEq, Repr

/-- The kind of candidate that a table cell is. -/
def TableCell.candidateKind? (c : TableCell) : Option CandidateKind :=
  match c.style, c.inner with
  | .literal, _ => none
  | .asciiDoc, some _ => some .nestedDocument
  | .asciiDoc, none => none
  | _, _ => some .tableCell

/-- The candidates among the cells of a row, from a column on. -/
def cellCandidates (path : NodePath) (row : Nat) : (column : Nat) → List TableCell → List Candidate
  | _, [] => []
  | column, c :: cs =>
    (c.candidateKind?.map (⟨path ++ [.cell row column], ·⟩)).toList
      ++ cellCandidates path row (column + 1) cs

/-- The candidates among the cells of rows, from a row on. -/
def rowCandidates (path : NodePath) : (row : Nat) → List TableRow → List Candidate
  | _, [] => []
  | row, r :: rs => cellCandidates path row 0 r.cells ++ rowCandidates path (row + 1) rs

mutual

/-- The candidates in the block at a path, itself included. -/
def Block.candidates (path : NodePath) : Block → List Candidate
  | .math _ => [⟨path, .mathBlock⟩]
  | .prose p => if p.expandsMacros then [⟨path, .prose⟩] else []
  | .list ⟨_, _, _, items⟩ => itemCandidates path 0 items
  | .sect ⟨_, _, _, blocks, _⟩ => ⟨path, .sectionTitle⟩ :: blockCandidates path 0 blocks
  | .compound ⟨_, _, _, blocks⟩ => blockCandidates path 0 blocks
  | .table ⟨_, _, rows, _⟩ => rowCandidates path 0 rows
  | .image _ => []
  | .passthrough _ => []

/-- The candidates in the child blocks of the node at a path, from an index on. -/
def blockCandidates (path : NodePath) : (index : Nat) → List Block → List Candidate
  | _, [] => []
  | index, b :: bs =>
    b.candidates (path ++ [.block index]) ++ blockCandidates path (index + 1) bs

/-- The candidates in the items of the list at a path, from an index on. -/
def itemCandidates (path : NodePath) : (index : Nat) → List ListItem → List Candidate
  | _, [] => []
  | index, ⟨_, blocks⟩ :: items =>
    ⟨path ++ [.item index], .listItem⟩ :: blockCandidates (path ++ [.item index]) 0 blocks
      ++ itemCandidates path (index + 1) items

end

namespace Document

/-- The candidates of a document, in document order. -/
def candidates (d : Document) : List Candidate :=
  blockCandidates [] 0 d.blocks

end Document

/-! ### The texts of candidates -/

namespace CandidateKind

/-- The text of a node, seen as a candidate of a kind. -/
def textOf? : CandidateKind → Node → Option String
  | prose, .block (.prose p) => some p.text
  | listItem, .item i => some i.text
  | tableCell, .cell c => some c.text
  | sectionTitle, .block (.sect s) => some s.title
  | _, _ => none

/-- A node with another text, seen as a candidate of a kind. -/
def setText? (text : String) : CandidateKind → Node → Option Node
  | prose, .block (.prose p) => some (.block (.prose (p.setText text)))
  | listItem, .item i => some (.item { i with text })
  | tableCell, .cell c => some (.cell { c with text })
  | sectionTitle, .block (.sect s) => some (.block (.sect (s.setTitle text)))
  | _, _ => none

end CandidateKind

namespace Document

/-- The text of a candidate. -/
def textOf? (d : Document) (c : Candidate) : Option String :=
  (d.node? c.path).bind c.kind.textOf?

/-- The document with another text at a candidate, if there is a text of its kind at its path. -/
def setText? (c : Candidate) (text : String) (d : Document) : Option Document :=
  d.update? (c.kind.setText? text) c.path

/-- The block at a path. -/
def block? (d : Document) (path : NodePath) : Option Block :=
  (d.node? path).bind Node.block?

/-- The document with another block in the place of the block at a path. -/
def replaceBlock? (path : NodePath) (replacement : Block) (d : Document) : Option Document :=
  d.update? (fun n ↦ n.block?.map fun _ ↦ .block replacement) path

end Document

end DocumentMath
