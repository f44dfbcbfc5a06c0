import DocumentMath.Attributes
import DocumentMath.Substitution

/-!
# Documents

A document is a tree of blocks under a map of attributes. Text stands in prose blocks, in the titles
of sections, in list items and in table cells. Blocks nest in sections, in compound blocks and in
list items; a table cell may hold a whole document with attributes of its own.

The types are mutually inductive, and functions on them recurse on the tree.
-/

namespace DocumentMath

/-! ### Blocks without other blocks in them -/

/-- A displayed equation. -/
structure MathBlock where
  id : Option String
  title : Option String
  /-- The style, which names the notation of the content. -/
  style : String
  /-- The equation as it is written. -/
  content : String
  /-- The text that stands for the equation where it cannot be shown. -/
  alt : Option String
  deriving DecidableEq, Repr

/-- A block of text. -/
structure Prose where
  id : Option String
  title : Option String
  /-- What the text is: a paragraph, an admonition, a literal text and so on. -/
  context : String
  lines : List String
  /-- The substitutions a converter applies to the text. -/
  subs : SubstitutionSet
  deriving DecidableEq, Repr

namespace Prose

/-- The lines of a text. -/
def linesOf (text : String) : List String :=
  (Text.partsBetween '\n' text.toList).map String.ofList

/-- The text of the block, with line feeds between its lines. -/
def text (p : Prose) : String :=
  "\n".intercalate p.lines

/-- The block with another text. -/
def setText (text : String) (p : Prose) : Prose :=
  { p with lines := linesOf text }

/-- Whether a converter looks for inline equations in the text. -/
def expandsMacros (p : Prose) : Bool :=
  p.subs.contains .macros

end Prose

/-- Where something stands on its line. -/
inductive Alignment where
  | left
  | center
  | right
  deriving DecidableEq, Repr

/-- An image. -/
structure ImageBlock where
  id : Option String
  title : Option String
  /-- The file, seen from the images directory. -/
  target : String
  alt : String
  align : Option Alignment
  width : Option UInt32
  height : Option UInt32
  deriving DecidableEq, Repr

/-- Markup that a converter passes through. -/
structure PassthroughBlock where
  id : Option String
  title : Option String
  content : String
  deriving DecidableEq, Repr

/-- How the items of a list are marked. -/
inductive ListStyle where
  | ordered (start : UInt32)
  | unordered (marker : Char)
  deriving DecidableEq, Repr

/-- How the text of a table cell is set. -/
inductive CellStyle where
  | default
  | emphasis
  | header
  | literal
  | monospace
  | strong
  /-- The cell holds a document. -/
  | asciiDoc
  deriving DecidableEq, Repr

/-! ### The tree -/

mutual

/-- A block of a document. -/
inductive Block where
  | math (block : MathBlock)
  | prose (block : Prose)
  | list (block : ItemList)
  | sect (block : Section)
  | table (block : Table)
  | compound (block : CompoundBlock)
  | image (block : ImageBlock)
  | passthrough (block : PassthroughBlock)

/-- A list. -/
structure ItemList where
  id : Option String
  title : Option String
  style : ListStyle
  items : List ListItem

/-- An item of a list: a text with blocks attached to it. -/
structure ListItem where
  text : String
  blocks : List Block

/-- A section: a title and the blocks under it. -/
structure Section where
  id : Option String
  level : UInt8
  title : String
  blocks : List Block
  /-- The title as it is converted, once it has been asked for. -/
  converted : Option String

/-- A container of blocks: an example, a sidebar and so on. -/
structure CompoundBlock where
  id : Option String
  title : Option String
  context : String
  blocks : List Block

/-- A table. -/
structure Table where
  id : Option String
  title : Option String
  rows : List TableRow
  /-- How many rows make up the head of the table. -/
  headerRows : UInt8

/-- A row of a table. -/
structure TableRow where
  cells : List TableCell

/-- A cell of a table. -/
structure TableCell where
  style : CellStyle
  text : String
  inner : Option Document
  rowspan : UInt8
  colspan : UInt8

/-- A document. -/
structure Document where
  attributes : Attributes
  blocks : List Block

end

instance : Inhabited Document := ⟨⟨.empty, []⟩⟩

/-! ### Sections -/

namespace Section

/-- A section with a title and no blocks yet. -/
def titled (title : String) (level : UInt8) : Section :=
  ⟨none, level, title, [], none⟩

/-- The section with another title; what was known of the old title's converted form is dropped. -/
def setTitle (title : String) (s : Section) : Section :=
  { s with title, converted := none }

/-- A title as it is converted. -/
def convert (title : String) : String :=
  SubstitutionSet.verbatim.apply none title

/-- The converted title; a known one is taken as it is. -/
def convertedTitle (s : Section) : String :=
  s.converted.getD (convert s.title)

/-- The section with its converted title known. -/
def withConvertedTitle (s : Section) : Section :=
  { s with converted := some s.convertedTitle }

/-- The section with one more block at its end. -/
def addBlock (b : Block) (s : Section) : Section :=
  { s with blocks := s.blocks ++ [b] }

end Section

/-! ### Blocks -/

namespace Block

/-- The identifier of a block. -/
def id : Block → Option String
  | math b => b.id
  | prose b => b.id
  | list b => b.id
  | sect b => b.id
  | table b => b.id
  | compound b => b.id
  | image b => b.id
  | passthrough b => b.id

/-- The name of the kind of a block. -/
def kind : Block → String
  | math _ => "math"
  | prose _ => "prose"
  | list _ => "list"
  | sect _ => "section"
  | table _ => "table"
  | compound _ => "compound"
  | image _ => "image"
  | passthrough _ => "passthrough"

/-- The child blocks of a container. List items and table cells are no blocks. -/
def children? : Block → Option (List Block)
  | sect s => some s.blocks
  | compound c => some c.blocks
  | _ => none

/-- The block with other child blocks, if it is a container. -/
def setChildren? (blocks : List Block) : Block → Option Block
  | sect s => some (sect { s with blocks })
  | compound c => some (compound { c with blocks })
  | _ => none

end Block

mutual

/-- The number of blocks in a block, itself included; documents in table cells do not count. -/
def Block.count : Block → Nat
  | .list ⟨_, _, _, items⟩ => 1 + countInItems items
  | .sect ⟨_, _, _, blocks, _⟩ => 1 + countBlocks blocks
  | .compound ⟨_, _, _, blocks⟩ => 1 + countBlocks blocks
  | _ => 1

/-- The number of blocks in a list of blocks. -/
def countBlocks : List Block → Nat
  | [] => 0
  | b :: bs => b.count + countBlocks bs

/-- The number of blocks attached to items. -/
def countInItems : List ListItem → Nat
  | [] => 0
  | ⟨_, blocks⟩ :: items => countBlocks blocks + countInItems items

end

/-! ### Documents -/

namespace Document

/-- A document without attributes and blocks. -/
def empty : Document := ⟨.empty, []⟩

/-- The value of an attribute. -/
def attribute? (d : Document) (name : String) : Option String :=
  d.attributes.get? name

/-- The document with an attribute set. -/
def setAttribute (name value : String) (d : Document) : Document :=
  { d with attributes := d.attributes.insert name value }

/-- The document with one more block at its end. -/
def addBlock (b : Block) (d : Document) : Document :=
  { d with blocks := d.blocks ++ [b] }

/-- Whether the document has no blocks. -/
def isEmpty (d : Document) : Bool :=
  d.blocks.isEmpty

/-- Whether the document is converted to HTML, as it is unless its `backend` says otherwise. -/
def isHtml (d : Document) : Bool :=
  let backend := ((d.attribute? "backend").getD "html5").toList
  "html".toList.isPrefixOf backend || "xhtml".toList.isPrefixOf backend

/-- The number of blocks in the tree; documents in table cells do not count. -/
def totalBlocks (d : Document) : Nat :=
  countBlocks d.blocks

end Document

end DocumentMath
