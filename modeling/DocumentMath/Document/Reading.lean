import DocumentMath.Document.Decode

/-!
# Reading documents

A serialized document is read from front to back, and the error that counts is the one met first.
The members of a document are read one by one: a member that is there twice, or that has the wrong
shape, is an error as soon as that shows. Unknown members are skipped. The blocks at the top are
read in the same way as far as their type goes; everything else in them is read as JSON first and is
then given its shape.
-/

namespace DocumentMath

open Json (Reader skipBlanks more)

namespace Document

/-- How deep values may nest inside a block at the top of a document. -/
def blockDepth : Nat := Json.maxDepth - 3

/-! ### Parts of the wrong shape -/

/-- Fails at a value of the wrong shape. A text, a number or a word that is malformed fails as
such. -/
def mismatch {α : Type} (cs : List Char) : Except JsonError α :=
  match cs with
  | '[' :: _ => .error .mismatched
  | '\x7b' :: _ => .error .mismatched
  | cs => (Json.scalarValue cs).bind fun _ ↦ .error .mismatched

/-- What is there, or an error of shape. -/
def shaped {α : Type} : Option α → Except JsonError α
  | some a => .ok a
  | none => .error .mismatched

/-! ### Texts and attributes -/

/-- Reads a text. -/
def readText : Reader String := fun cs ↦
  match skipBlanks cs with
  | '\x22' :: cs => Json.text cs
  | cs => mismatch cs

/-- Reads attributes; of two values of a name the later counts. -/
def readAttributes : Reader Attributes := fun cs ↦
  match skipBlanks cs with
  | '\x7b' :: cs => do
    let (entries, cs) ← Json.members readText (cs.length + 1) true cs
    .ok (.ofList entries, cs)
  | cs => mismatch cs

/-! ### Blocks -/

/-- Reads the type of a block. -/
def readType : Reader String := fun cs ↦ do
  let (name, cs) ← readText cs
  if Block.typeNames.contains name then .ok (name, cs) else .error .mismatched

/-- Reads at most `steps` members of a block, up to its closing brace, when `type?` is its type as
far as that is known. -/
def readBlockMembers : (steps : Nat) → (first : Bool) → (type? : Option String) →
    Reader (Option String × List (String × Json))
  | 0, _, _, _ => .error .incomplete
  | steps + 1, first, type?, cs => do
    let (another, cs) ← more '\x7d' first cs
    if another then
      let (name, cs) ← Json.memberName cs
      if name = "type" then
        if type?.isSome then .error .mismatched
        else
          let (typeName, cs) ← readType (← Json.colon cs)
          readBlockMembers steps false (some typeName) cs
      else
        let (j, cs) ← Json.value blockDepth (← Json.colon cs)
        let ((type?, ms), cs) ← readBlockMembers steps false type? cs
        .ok ((type?, (name, j) :: ms), cs)
    else .ok ((type?, []), cs)

/-- Reads the elements of a block in an array, up to its closing bracket. -/
def readBlockElements (cs : List Char) : Except JsonError ((String × List Json) × List Char) := do
  let (another, cs) ← more ']' true cs
  if another then
    let (typeName, cs) ← readType cs
    let (js, cs) ← Json.elements (Json.value blockDepth) (cs.length + 1) false cs
    .ok ((typeName, js), cs)
  else .error .mismatched

/-- Reads a block. -/
def readBlock : Reader Block := fun cs ↦
  match skipBlanks cs with
  | '\x7b' :: cs => do
    let ((type?, ms), cs) ← readBlockMembers (cs.length + 1) true none cs
    let typeName ← shaped type?
    let b ← shaped (Block.ofFields? typeName (.object ms))
    .ok (b, cs)
  | '[' :: cs => do
    let ((typeName, js), cs) ← readBlockElements cs
    let b ← shaped (Block.ofFields? typeName (.array js))
    .ok (b, cs)
  | cs => mismatch cs

/-- Reads blocks. -/
def readBlocks : Reader (List Block) := fun cs ↦
  match skipBlanks cs with
  | '[' :: cs => Json.elements readBlock (cs.length + 1) true cs
  | cs => mismatch cs

/-! ### Documents -/

/-- The members of a document, as far as they have been read. -/
structure Members where
  attributes? : Option Attributes
  blocks? : Option (List Block)

/-- The document with these members; the others are empty. -/
def Members.document (m : Members) : Document :=
  ⟨m.attributes?.getD .empty, m.blocks?.getD []⟩

/-- Reads at most `steps` members of a document, up to its closing brace. -/
def readMembers : (steps : Nat) → (first : Bool) → Members → Reader Members
  | 0, _, _, _ => .error .incomplete
  | steps + 1, first, m, cs => do
    let (another, cs) ← more '\x7d' first cs
    if another then
      let (name, cs) ← Json.memberName cs
      if name = "attributes" then
        if m.attributes?.isSome then .error .mismatched
        else
          let (attributes, cs) ← readAttributes (← Json.colon cs)
          readMembers steps false { m with attributes? := some attributes } cs
      else if name = "blocks" then
        if m.blocks?.isSome then .error .mismatched
        else
          let (blocks, cs) ← readBlocks (← Json.colon cs)
          readMembers steps false { m with blocks? := some blocks } cs
      else readMembers steps false m (← Json.skip (← Json.colon cs))
    else .ok (m, cs)

/-- Takes the closing bracket of a document in an array off the text. -/
def closeArray (cs : List Char) : Except JsonError (List Char) :=
  match skipBlanks cs with
  | [] => .error .incomplete
  | ']' :: cs => .ok cs
  | _ => .error .malformed

/-- Reads the elements of a document in an array, up to its closing bracket. -/
def readElements (cs : List Char) : Except JsonError (Members × List Char) := do
  let (another, cs) ← more ']' true cs
  if another then
    let (attributes, cs) ← readAttributes cs
    let (another, cs) ← more ']' false cs
    if another then
      let (blocks, cs) ← readBlocks cs
      .ok (⟨some attributes, some blocks⟩, ← closeArray cs)
    else .ok (⟨some attributes, none⟩, cs)
  else .ok (⟨none, none⟩, cs)

/-- Reads a document. -/
def readDocument : Reader Document := fun cs ↦
  match skipBlanks cs with
  | '\x7b' :: cs => do
    let (m, cs) ← readMembers (cs.length + 1) true ⟨none, none⟩ cs
    .ok (m.document, cs)
  | '[' :: cs => do
    let (m, cs) ← readElements cs
    .ok (m.document, cs)
  | cs => mismatch cs

/-- The document a whole text describes. -/
def ofJsonText (text : String) : Except JsonError Document := do
  let (d, rest) ← readDocument text.toList
  match skipBlanks rest with
  | [] => .ok d
  | _ => .error .malformed

end Document

end DocumentMath
