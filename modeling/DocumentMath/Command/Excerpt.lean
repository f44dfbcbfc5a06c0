import DocumentMath.Command.Options
import DocumentMath.Command.QuotedName

/-!
# Excerpts

`head` copies the first lines or bytes of files, or all but the last ones; `tail` copies the last
ones, or those from one with a number on. There may be a header in front of each file.
-/

namespace DocumentMath.Excerpt

open Text (Bytes)

/-! ### Counts -/

/-- The power of the base that a letter stands for. -/
def powers : List (Char × Nat) :=
  [('k', 1), ('K', 1), ('m', 2), ('M', 2), ('G', 3), ('T', 4), ('P', 5), ('E', 6), ('Z', 7),
    ('Y', 8)]

/-- What a suffix multiplies a count by. -/
def factor? : List Char → Option Nat
  | [] => some 1
  | ['b'] => some 512
  | c :: cs =>
    match powers.lookup c, cs with
    | some power, [] | some power, ['i', 'B'] => some (Nat.pow 1024 power)
    | some power, ['B'] | some power, ['D'] => some (Nat.pow 1000 power)
    | _, _ => none

/-- The count that a text writes, maybe with a suffix. -/
def countOf? (text : List Char) : Option Nat :=
  let unsigned := if text.head? = some '+' then text.drop 1 else text
  let digits := unsigned.takeWhile Char.isDigit
  match factor? (unsigned.drop digits.length) with
  | none => none
  | some factor =>
    if digits.isEmpty then if unsigned.isEmpty || unsigned != text then none else some factor
    else some (digits.foldl (fun n c ↦ 10 * n + (c.toNat - 48)) 0 * factor)

/-- How much of a text is copied. -/
structure Extent where
  byLines : Bool
  count : Nat
  /-- Whether what is counted is left out, and the rest of the text is copied. -/
  isRest : Bool
  deriving DecidableEq, Repr

/-- The extent that an option gives, or a complaint. The sign in front of a count may ask for the
rest of the text. -/
def Extent.read (restSign : Char) (letter : Char) (value : String) : Except String Extent :=
  let isRest := value.toList.head? = some restSign
  let text := if value.toList.head? = some '-' then value.toList.drop 1 else value.toList
  let complaint := "invalid number of " ++ (if letter = 'n' then "lines" else "bytes") ++ ": " ++
    QuotedName.shown true (String.ofList text)
  match countOf? text with
  | none => .error complaint
  | some count =>
    if count < 0x10000000000000000 then .ok ⟨letter = 'n', count, isRest⟩
    else .error (complaint ++ ": Value too large for defined data type")

/-- Ten lines. -/
def Extent.usual : Extent := ⟨true, 10, false⟩

/-! ### Parts of a text -/

/-- The units of a text that are counted: bytes, or lines with the bytes that end them. -/
def unitsOf (byLines : Bool) (lineEnd : UInt8) (bs : Bytes) : List Bytes :=
  if byLines then bs.splitBy fun b _ ↦ b != lineEnd else bs.map ([·])

/-- The first part of a text. -/
def firstPart (e : Extent) (lineEnd : UInt8) (bs : Bytes) : Bytes :=
  let units := unitsOf e.byLines lineEnd bs
  (units.take (if e.isRest then units.length - e.count else e.count)).flatten

/-- The last part of a text. Where the rest is meant, the units are counted from one on. -/
def lastPart (e : Extent) (lineEnd : UInt8) (bs : Bytes) : Bytes :=
  let units := unitsOf e.byLines lineEnd bs
  (units.drop (if e.isRest then e.count - 1 else units.length - e.count)).flatten

/-- How many bytes are read at once. -/
def blockLength : Nat := 8192

/-- How many bytes of a text are read for its first part, if nobody can go back in the text. -/
def readLength (e : Extent) (bs part : Bytes) : Nat :=
  if e.isRest then bs.length
  else if e.byLines then min bs.length ((part.length + blockLength - 1) / blockLength * blockLength)
  else part.length

/-! ### Files -/

/-- How files are copied. -/
structure Plan where
  hasHeaders : Bool
  /-- What is copied of a text. -/
  copy : Bytes → Bytes
  /-- How many bytes of a text are read. -/
  reads : Bytes → Nat
  /-- What cannot be done with a stream that is closed. -/
  closedVerb : String

/-- The header in front of a file. -/
def header (first : Bool) (name : String) : Bytes :=
  Text.ofOctets ((if first then "" else "\n") ++ "==> " ++ name ++ " <==\n")

/-- The call in which so much of the input has been read. -/
def readInput (length : Nat) (c : Call) : Call :=
  { c with input := c.input.drop length }

/-- Copies parts of files, one after the other. -/
def copyFiles (p : Plan) (first : Bool) (c : Call) : List String → Finished
  | [] => c.finish 0 []
  | name :: names =>
    let isInput := name = "-"
    let shown := if isInput then "standard input" else name
    let lead (f : Finished) : Finished :=
      if p.hasHeaders then f.behind (.output (header first shown)) else f
    let content := if isInput then c.readAll.1 else (c.read name).1
    match content with
    | .ok content =>
      let c := if isInput then readInput (p.reads content) c else c
      lead ((copyFiles p false c names).behind (.output (p.copy content)))
    | .error e =>
      let isClosed := isInput && e == .badDescriptor
      if isInput || e == .isADirectory then
        let verb := if isClosed then p.closedVerb else "error reading "
        let f := (copyFiles p false c names).behind
          (c.message (verb ++ QuotedName.shown true shown ++ ": " ++ e.reason))
        lead (if isClosed then f.failing (c.message ("-: " ++ e.reason))
          else { f with ending := .exit 1 })
      else
        let f := (copyFiles p first c names).behind
          (c.message
            ("cannot open " ++ QuotedName.shown true shown ++ " for reading: " ++ e.reason))
        { f with ending := .exit 1 }

/-! ### Options -/

/-- The options of both programs. -/
def options : OptionTable where
  plain := "qvz0123456789".toList
  valued := ['c', 'n']
  words := [("bytes", 'c'), ("lines", 'n'), ("quiet", 'q'), ("silent", 'q'), ("verbose", 'v'),
    ("zero-terminated", 'z')]
  anywhere := true

/-- Whether there are headers. -/
def hasHeaders (r : ReadOptions) : Bool :=
  match r.last? ['q', 'v'] with
  | some (letter, _) => letter == 'v'
  | none => r.names.length > 1

/-- The byte that ends lines. -/
def lineEndOf (r : ReadOptions) : UInt8 :=
  if r.has 'z' then 0 else 10

/-- The names of the files, or of what can be read. -/
def namesOf (r : ReadOptions) : List String :=
  if r.names.isEmpty then ["-"] else r.names

/-- The extent that options give. All that are given have to be right. -/
def extentOf (restSign : Char) (r : ReadOptions) : Except String Extent := do
  let extents ← (r.options.filter fun (letter, _) ↦ letter = 'c' || letter = 'n').mapM
    fun (letter, value) ↦ Extent.read restSign letter value
  return extents.getLast?.getD .usual

/-- Reads options behind those that an argument in an older form stands for. -/
def readBehind (t : OptionTable) (older : List (Char × String)) (rest : List String) :
    Except String ReadOptions :=
  (t.read rest).map fun r ↦ { r with options := older ++ r.options }

/-- The digit among the options, which may only stand in the first one. -/
def digit? (r : ReadOptions) : Option Char :=
  (r.options.map (·.1)).find? Char.isDigit

/-! ### The first part -/

/-- The options that letters behind a count stand for. -/
def olderLetters (digits : List Char) (letter : Char) (suffix others : List Char) :
    List Char → Except String (List (Char × String))
  | [] => .ok ((letter, String.ofList (digits ++ suffix)) :: others.map (·, ""))
  | 'c' :: cs => olderLetters digits 'c' [] others cs
  | 'l' :: cs => olderLetters digits 'n' suffix others cs
  | c :: cs =>
    if ['b', 'k', 'm'].contains c then olderLetters digits 'c' [c] others cs
    else if ['q', 'v', 'z'].contains c then olderLetters digits letter suffix (others ++ [c]) cs
    else .error ("invalid trailing option -- " ++ String.singleton c)

/-- Reads the arguments of `head`. The first one may be a count with letters behind it. -/
def readHead : List String → Except String ReadOptions
  | [] => options.read []
  | text :: rest =>
    match text.toList with
    | '-' :: c :: cs =>
      if c.isDigit then do
        let digits := (c :: cs).takeWhile Char.isDigit
        readBehind options (← olderLetters digits 'n' [] [] ((c :: cs).drop digits.length)) rest
      else options.read (text :: rest)
    | _ => options.read (text :: rest)

/-- Copies the first part of files. -/
def head : Program :=
  Program.checked fun c ↦
    match readHead c.arguments with
    | .error mistake => c.misuse mistake
    | .ok r =>
      match extentOf '-' r, digit? r with
      | .error complaint, _ => c.refuse complaint
      | .ok _, some digit => c.misuse ("invalid trailing option -- " ++ String.singleton digit)
      | .ok e, none =>
        let copy := firstPart e (lineEndOf r)
        copyFiles
          { hasHeaders := hasHeaders r
            copy
            reads := fun bs ↦
              if c.inputPlace?.isSome then (copy bs).length else readLength e bs (copy bs)
            closedVerb := "error reading " }
          true c (namesOf r)

/-! ### The last part -/

/-- The options that the argument of `tail` in an older form stands for: a sign, a count and a
letter, all but one of which may be missing. -/
def olderTail? (text : String) : Option (List (Char × String)) :=
  match text.toList with
  | sign :: cs =>
    let digits := cs.takeWhile Char.isDigit
    let isOlder := sign == '+' || (sign == '-' && !cs.isEmpty && cs != ['c'])
    let count (usual : Nat) : String :=
      String.ofList (sign :: if digits.isEmpty then (toString usual).toList else digits)
    match isOlder, cs.drop digits.length with
    | true, [] | true, ['l'] => some [('n', count 10)]
    | true, ['c'] => some [('c', count 10)]
    | true, ['b'] => some [('c', count 5120 ++ if digits.isEmpty then "" else "b")]
    | _, _ => none
  | [] => none

/-- Reads the arguments of `tail`. The older form has at most one name behind it. -/
def readTail (arguments : List String) : Except String ReadOptions :=
  match arguments with
  | [] => options.read []
  | text :: rest =>
    let isShort :=
      match rest with
      | [] => true
      | [name] => name == "-" || !name.startsWith "-" || name == "--"
      | [mark, _] => mark == "--"
      | _ => false
    match olderTail? text, isShort with
    | some older, true => readBehind options older rest
    | _, _ => options.read (text :: rest)

/-- Copies the last part of files. -/
def tail : Program :=
  Program.checked fun c ↦
    match readTail c.arguments with
    | .error mistake => c.misuse mistake
    | .ok r =>
      match extentOf '+' r, digit? r with
      | .error complaint, _ => c.refuse complaint
      | .ok _, some digit =>
        c.refuse ("option used in invalid context -- " ++ String.singleton digit)
      | .ok e, none =>
        if e.count = 0 ∧ !e.isRest then c.finish 0 []
        else
          copyFiles
            { hasHeaders := hasHeaders r
              copy := lastPart e (lineEndOf r)
              reads := List.length
              closedVerb := "cannot fstat " }
            true c (namesOf r)

end DocumentMath.Excerpt
