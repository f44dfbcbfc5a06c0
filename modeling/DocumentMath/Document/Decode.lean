import DocumentMath.Document.Encode
import DocumentMath.Json.Reader

/-!
# Documents from JSON

A value that has been read is given the shape of a document or of one of its parts. The fields of a
record stand in an object, in any order, or in an array, in their fixed order. Unknown members of an
object do not count, and a field that is there twice is an error. A field with a default may be
missing: in an object anywhere, and in an array at the end. The type of a block is the member `type`
of an object or the first element of an array. It is given by its name or, in a block inside
another, also by its place among all types.

A block is read from a value with a bound for how deep the value nests, which goes down by one with
each block inside another. The parts that hold blocks take the reader for blocks as a parameter.
-/

namespace DocumentMath

namespace Json

/-! ### Fields of records -/

/-- The values of the fields with these names in a record: one for each name, or nothing where the
field is missing. There are none if a field is there twice or elements are left over. -/
def fields? (names : List String) : Json → Option (List (Option Json))
  | .object ms =>
    if names.all fun name ↦ (ms.filter (·.1 == name)).length ≤ 1 then
      some (names.map fun name ↦ (ms.find? (·.1 == name)).map (·.2))
    else none
  | .array js =>
    if js.length ≤ names.length then
      some (js.map some ++ List.replicate (names.length - js.length) none)
    else none
  | _ => none

/-- The value of a text. -/
def string? : Json → Option String
  | .string s => some s
  | _ => none

/-- The value of a natural number below a bound. -/
def naturalBelow? (bound : Nat) : Json → Option Nat
  | .natural n => if n < bound then some n else none
  | _ => none

/-- The elements of an array, each with a shape of its own. -/
def list? {α : Type} (element : Json → Option α) : Json → Option (List α)
  | .array js => js.mapM element
  | _ => none

/-- A value that may be null. -/
def nullable? {α : Type} (value : Json → Option α) : Json → Option (Option α)
  | .null => some none
  | j => (value j).map some

/-- A field that has to be there. -/
def required? {α : Type} (value : Json → Option α) (field? : Option Json) : Option α :=
  field?.bind value

/-- A field that has a default. -/
def withDefault? {α : Type} (default : α) (value : Json → Option α) (field? : Option Json) :
    Option α :=
  match field? with
  | some j => value j
  | none => some default

/-- A field that may be missing or null. -/
def optional? {α : Type} (value : Json → Option α) (field? : Option Json) : Option (Option α) :=
  withDefault? none (nullable? value) field?

/-- A name for one of several choices: a text, or an object with the name and nothing under it. -/
def choice? : Json → Option String
  | .string s => some s
  | .object [(name, .null)] => some name
  | .object [(name, .object [])] => some name
  | _ => none

/-- The choice with a name. -/
def chosen? {α : Type} (choices : List α) (tag : α → String) (j : Json) : Option α :=
  j.choice?.bind fun name ↦ choices.find? (tag · == name)

/-! ### Types -/

/-- The type of a tagged value and the value without it. A type is given by its name or by its place
among all names. -/
def tagged? (names : List String) : Json → Option (String × Json)
  | .object ms =>
    match ms.filter (·.1 == "type") with
    | [(_, tag)] => (typeName? tag).map (·, .object (ms.filter (·.1 != "type")))
    | _ => none
  | .array (tag :: js) => (typeName? tag).map (·, .array js)
  | _ => none
where
  /-- The name of a type. -/
  typeName? : Json → Option String
    | .string s => if names.contains s then some s else none
    | .natural n => names[n]?
    | _ => none

/-- Whether the type of a tagged value is given by its name. -/
def isNamed : Json → Bool
  | .object ms => ms.any fun (name, tag) ↦ name == "type" && tag.string?.isSome
  | .array (tag :: _) => tag.string?.isSome
  | _ => false

end Json

open Json

/-! ### Parts of blocks -/

/-- All alignments. -/
def Alignment.all : List Alignment := [left, center, right]

/-- All cell styles. -/
def CellStyle.all : List CellStyle :=
  [default, emphasis, header, literal, monospace, strong, asciiDoc]

/-- A number of 8 bits. -/
def byte? (j : Json) : Option UInt8 :=
  (naturalBelow? (Nat.pow 2 8) j).map UInt8.ofNat

/-- A number of 32 bits. -/
def word? (j : Json) : Option UInt32 :=
  (naturalBelow? (Nat.pow 2 32) j).map UInt32.ofNat

/-- A text with one character. -/
def character? (j : Json) : Option Char :=
  match j.string?.map String.toList with
  | some [c] => some c
  | _ => none

/-- A list of substitutions. -/
def SubstitutionSet.ofJson? (j : Json) : Option SubstitutionSet :=
  (list? (chosen? Substitution.all Substitution.tag) j).map (⟨·⟩)

/-- An alignment. -/
def Alignment.ofJson? : Json → Option Alignment :=
  chosen? all tag

/-- A cell style. -/
def CellStyle.ofJson? : Json → Option CellStyle :=
  chosen? all tag

/-- The types of list styles. -/
def ListStyle.typeNames : List String := ["ordered", "unordered"]

/-- A list style. -/
def ListStyle.ofJson? (j : Json) : Option ListStyle := do
  match ← j.tagged? typeNames with
  | ("ordered", j) =>
    match ← j.fields? ["start"] with
    | [start?] => pure (.ordered (← required? word? start?))
    | _ => none
  | ("unordered", j) =>
    match ← j.fields? ["marker"] with
    | [marker?] => pure (.unordered (← required? character? marker?))
    | _ => none
  | _ => none

/-- A member whose value is a text. -/
def entry? (m : String × Json) : Option (String × String) :=
  m.2.string?.map (m.1, ·)

/-- A map of attributes. -/
def Attributes.ofJson? : Json → Option Attributes
  | .object ms => (ms.mapM entry?).map .ofList
  | _ => none

/-! ### Blocks -/

/-- A math block without its type. -/
def MathBlock.ofJson? (j : Json) : Option MathBlock := do
  match ← j.fields? ["id", "title", "style", "content", "alt"] with
  | [id?, title?, style?, content?, alt?] =>
    pure ⟨← optional? string? id?, ← optional? string? title?, ← required? string? style?,
      ← required? string? content?, ← optional? string? alt?⟩
  | _ => none

/-- A prose block without its type. -/
def Prose.ofJson? (j : Json) : Option Prose := do
  match ← j.fields? ["id", "title", "context", "lines", "subs"] with
  | [id?, title?, context?, lines?, subs?] =>
    pure ⟨← optional? string? id?, ← optional? string? title?, ← required? string? context?,
      ← required? (list? string?) lines?, ← withDefault? .normal SubstitutionSet.ofJson? subs?⟩
  | _ => none

/-- An image block without its type. -/
def ImageBlock.ofJson? (j : Json) : Option ImageBlock := do
  match ← j.fields? ["id", "title", "target", "alt", "align", "width", "height"] with
  | [id?, title?, target?, alt?, align?, width?, height?] =>
    pure ⟨← optional? string? id?, ← optional? string? title?, ← required? string? target?,
      ← required? string? alt?, ← optional? Alignment.ofJson? align?, ← optional? word? width?,
      ← optional? word? height?⟩
  | _ => none

/-- A passthrough block without its type. -/
def PassthroughBlock.ofJson? (j : Json) : Option PassthroughBlock := do
  match ← j.fields? ["id", "title", "content"] with
  | [id?, title?, content?] =>
    pure ⟨← optional? string? id?, ← optional? string? title?, ← required? string? content?⟩
  | _ => none

/-- The types of blocks. -/
def Block.typeNames : List String :=
  ["math", "prose", "list", "section", "table", "compound", "image", "passthrough"]

section Containers

variable (block? : Json → Option Block)

/-- A list item, given how its blocks are read. -/
def ListItem.ofJsonWith? (j : Json) : Option ListItem := do
  match ← j.fields? ["text", "blocks"] with
  | [text?, blocks?] =>
    pure ⟨← required? string? text?, ← withDefault? [] (list? block?) blocks?⟩
  | _ => none

/-- A list without its type, given how its blocks are read. -/
def ItemList.ofJsonWith? (j : Json) : Option ItemList := do
  match ← j.fields? ["id", "title", "style", "items"] with
  | [id?, title?, style?, items?] =>
    pure ⟨← optional? string? id?, ← optional? string? title?,
      ← required? ListStyle.ofJson? style?,
      ← required? (list? (ListItem.ofJsonWith? block?)) items?⟩
  | _ => none

/-- A section without its type, given how its blocks are read. -/
def Section.ofJsonWith? (j : Json) : Option Section := do
  match ← j.fields? ["id", "level", "title", "blocks"] with
  | [id?, level?, title?, blocks?] =>
    pure ⟨← optional? string? id?, ← required? byte? level?, ← required? string? title?,
      ← withDefault? [] (list? block?) blocks?, none⟩
  | _ => none

/-- A compound block without its type, given how its blocks are read. -/
def CompoundBlock.ofJsonWith? (j : Json) : Option CompoundBlock := do
  match ← j.fields? ["id", "title", "context", "blocks"] with
  | [id?, title?, context?, blocks?] =>
    pure ⟨← optional? string? id?, ← optional? string? title?, ← required? string? context?,
      ← withDefault? [] (list? block?) blocks?⟩
  | _ => none

/-- A document, given how its blocks are read. -/
def Document.ofJsonWith? (j : Json) : Option Document := do
  match ← j.fields? ["attributes", "blocks"] with
  | [attributes?, blocks?] =>
    pure ⟨← withDefault? .empty Attributes.ofJson? attributes?,
      ← withDefault? [] (list? block?) blocks?⟩
  | _ => none

/-- A table cell, given how the blocks in its document are read. -/
def TableCell.ofJsonWith? (j : Json) : Option TableCell := do
  match ← j.fields? ["style", "text", "inner_document", "rowspan", "colspan"] with
  | [style?, text?, inner?, rowspan?, colspan?] =>
    pure ⟨← withDefault? .default CellStyle.ofJson? style?, ← withDefault? "" string? text?,
      ← optional? (Document.ofJsonWith? block?) inner?, ← withDefault? 1 byte? rowspan?,
      ← withDefault? 1 byte? colspan?⟩
  | _ => none

/-- A row of a table, given how the blocks in its cells are read. -/
def TableRow.ofJsonWith? (j : Json) : Option TableRow := do
  match ← j.fields? ["cells"] with
  | [cells?] => pure ⟨← required? (list? (TableCell.ofJsonWith? block?)) cells?⟩
  | _ => none

/-- A table without its type, given how the blocks in its cells are read. -/
def Table.ofJsonWith? (j : Json) : Option Table := do
  match ← j.fields? ["id", "title", "rows", "header_rows"] with
  | [id?, title?, rows?, headerRows?] =>
    pure ⟨← optional? string? id?, ← optional? string? title?,
      ← required? (list? (TableRow.ofJsonWith? block?)) rows?,
      ← withDefault? 0 byte? headerRows?⟩
  | _ => none

/-- A block of the given type, given how the blocks in it are read. -/
def Block.ofFieldsWith? (typeName : String) (j : Json) : Option Block :=
  match typeName with
  | "math" => (MathBlock.ofJson? j).map .math
  | "prose" => (Prose.ofJson? j).map .prose
  | "list" => (ItemList.ofJsonWith? block? j).map .list
  | "section" => (Section.ofJsonWith? block? j).map .sect
  | "table" => (Table.ofJsonWith? block? j).map .table
  | "compound" => (CompoundBlock.ofJsonWith? block? j).map .compound
  | "image" => (ImageBlock.ofJson? j).map .image
  | "passthrough" => (PassthroughBlock.ofJson? j).map .passthrough
  | _ => none

end Containers

namespace Block

/-- A block in a value that nests at most `levels` deep. -/
def ofJsonWithin? : (levels : Nat) → Json → Option Block
  | 0, _ => none
  | levels + 1, j =>
    (j.tagged? typeNames).bind fun (typeName, j) ↦ ofFieldsWith? (ofJsonWithin? levels) typeName j

/-- A block that stands at the top: its type has to be given by its name. -/
def ofJsonTop? (levels : Nat) (j : Json) : Option Block :=
  if j.isNamed then ofJsonWithin? levels j else none

/-- A block by itself. -/
def ofJson? (j : Json) : Option Block :=
  ofJsonTop? j.depth j

/-- A block of the given type, from its fields. -/
def ofFields? (typeName : String) (j : Json) : Option Block :=
  ofFieldsWith? (ofJsonWithin? j.depth) typeName j

end Block

/-- A document. -/
def Document.ofJson? (j : Json) : Option Document :=
  Document.ofJsonWith? (Block.ofJsonTop? j.depth) j

end DocumentMath
