import DocumentMath.Document.Basic
import DocumentMath.Json.Value

/-!
# Documents as JSON

A document is serialized as a JSON object with its fields in a fixed order. Every field is written,
and one without a value is null. A block starts with its type. The converted title of a section is
not written, since it follows from the title.
-/

namespace DocumentMath

namespace Json

/-- A text, or null. -/
def ofString? : Option String → Json
  | some s => .string s
  | none => .null

/-- A number of 32 bits, or null. -/
def ofUInt32? : Option UInt32 → Json
  | some n => .natural n.toNat
  | none => .null

end Json

/-- The name of an alignment in a serialized document. -/
def Alignment.tag : Alignment → String
  | left => "left"
  | center => "center"
  | right => "right"

/-- The name of a cell style in a serialized document. -/
def CellStyle.tag : CellStyle → String
  | default => "default"
  | emphasis => "emphasis"
  | header => "header"
  | literal => "literal"
  | monospace => "monospace"
  | strong => "strong"
  | asciiDoc => "asciidoc"

/-- The members of an object that describe a list style. -/
def ListStyle.toJson : ListStyle → Json
  | ordered start => .object [("type", .string "ordered"), ("start", .natural start.toNat)]
  | unordered marker =>
    .object [("type", .string "unordered"), ("marker", .string (String.singleton marker))]

/-- Substitutions as an array of their names. -/
def SubstitutionSet.toJson (s : SubstitutionSet) : Json :=
  .array (s.members.map fun sub ↦ .string sub.tag)

/-- Attributes as an object, in increasing order of their names. -/
def Attributes.toJson (a : Attributes) : Json :=
  .object (a.entries.map fun e ↦ (e.1, .string e.2))

/-- An alignment, or null. -/
def Alignment.toJson? : Option Alignment → Json
  | some a => .string a.tag
  | none => .null

mutual

/-- A block as an object. -/
def Block.toJson : Block → Json
  | .math b =>
    .object [("type", .string "math"), ("id", .ofString? b.id), ("title", .ofString? b.title),
      ("style", .string b.style), ("content", .string b.content), ("alt", .ofString? b.alt)]
  | .prose b =>
    .object [("type", .string "prose"), ("id", .ofString? b.id), ("title", .ofString? b.title),
      ("context", .string b.context), ("lines", .array (b.lines.map .string)),
      ("subs", b.subs.toJson)]
  | .list ⟨id, title, style, items⟩ =>
    .object [("type", .string "list"), ("id", .ofString? id), ("title", .ofString? title),
      ("style", style.toJson), ("items", .array (itemsToJson items))]
  | .sect ⟨id, level, title, blocks, _⟩ =>
    .object [("type", .string "section"), ("id", .ofString? id),
      ("level", .natural level.toNat), ("title", .string title),
      ("blocks", .array (blocksToJson blocks))]
  | .table ⟨id, title, rows, headerRows⟩ =>
    .object [("type", .string "table"), ("id", .ofString? id), ("title", .ofString? title),
      ("rows", .array (rowsToJson rows)), ("header_rows", .natural headerRows.toNat)]
  | .compound ⟨id, title, context, blocks⟩ =>
    .object [("type", .string "compound"), ("id", .ofString? id), ("title", .ofString? title),
      ("context", .string context), ("blocks", .array (blocksToJson blocks))]
  | .image b =>
    .object [("type", .string "image"), ("id", .ofString? b.id), ("title", .ofString? b.title),
      ("target", .string b.target), ("alt", .string b.alt), ("align", Alignment.toJson? b.align),
      ("width", .ofUInt32? b.width), ("height", .ofUInt32? b.height)]
  | .passthrough b =>
    .object [("type", .string "passthrough"), ("id", .ofString? b.id),
      ("title", .ofString? b.title), ("content", .string b.content)]

/-- Blocks as objects. -/
def blocksToJson : List Block → List Json
  | [] => []
  | b :: bs => b.toJson :: blocksToJson bs

/-- A list item as an object. -/
def ListItem.toJson : ListItem → Json
  | ⟨text, blocks⟩ =>
    .object [("text", .string text), ("blocks", .array (blocksToJson blocks))]

/-- List items as objects. -/
def itemsToJson : List ListItem → List Json
  | [] => []
  | i :: items => i.toJson :: itemsToJson items

/-- Rows as objects. -/
def rowsToJson : List TableRow → List Json
  | [] => []
  | ⟨cells⟩ :: rows => .object [("cells", .array (cellsToJson cells))] :: rowsToJson rows

/-- A table cell as an object. -/
def TableCell.toJson : TableCell → Json
  | ⟨style, text, inner, rowspan, colspan⟩ =>
    .object [("style", .string style.tag), ("text", .string text),
      ("inner_document", innerToJson inner), ("rowspan", .natural rowspan.toNat),
      ("colspan", .natural colspan.toNat)]

/-- Cells as objects. -/
def cellsToJson : List TableCell → List Json
  | [] => []
  | c :: cells => c.toJson :: cellsToJson cells

/-- The document in a cell, or null. -/
def innerToJson : Option Document → Json
  | none => .null
  | some ⟨attributes, blocks⟩ =>
    .object [("attributes", attributes.toJson), ("blocks", .array (blocksToJson blocks))]

end

/-- A document as an object. -/
def Document.toJson (d : Document) : Json :=
  .object [("attributes", d.attributes.toJson), ("blocks", .array (blocksToJson d.blocks))]

/-- How a serialized document is laid out. -/
inductive JsonLayout where
  /-- Every field on a line of its own. -/
  | pretty
  /-- Without blanks. -/
  | compact
  deriving DecidableEq, Repr

/-- The text of a serialized document. -/
def Document.toJsonText (layout : JsonLayout) (d : Document) : String :=
  String.ofList <|
    match layout with
    | .pretty => d.toJson.pretty
    | .compact => d.toJson.compact

end DocumentMath
