import DocumentMath.Command.Options
import DocumentMath.Command.QuotedName

/-!
# Concatenating

`cat` copies what files hold, one after the other. It may number lines, show where they end, show
what cannot be seen otherwise, and leave out empty lines behind empty lines. Lines go on from one
file to the next.
-/

namespace DocumentMath.Concatenate

open Text (Bytes)

/-! ### Options -/

/-- What is done to what is copied. -/
structure Style where
  /-- Whether lines are numbered. -/
  numbers : Bool
  /-- Whether empty lines have no numbers. -/
  numbersNonempty : Bool
  showsEnds : Bool
  showsTabs : Bool
  /-- Whether bytes that are neither tabs nor shown as they are get a spelling. -/
  spells : Bool
  squeezes : Bool
  deriving DecidableEq, Repr

namespace Style

/-- Everything is copied as it is. -/
def plain : Style := ⟨false, false, false, false, false, false⟩

/-- The style with what a letter asks for. -/
def withLetter (s : Style) : Char → Style
  | 'A' => { s with spells := true, showsEnds := true, showsTabs := true }
  | 'b' => { s with numbers := true, numbersNonempty := true }
  | 'e' => { s with spells := true, showsEnds := true }
  | 'E' => { s with showsEnds := true }
  | 'n' => { s with numbers := true }
  | 's' => { s with squeezes := true }
  | 't' => { s with spells := true, showsTabs := true }
  | 'T' => { s with showsTabs := true }
  | 'v' => { s with spells := true }
  | _ => s

/-- The style that options ask for. -/
def ofOptions (r : ReadOptions) : Style :=
  r.options.foldl (fun s (letter, _) ↦ s.withLetter letter) plain

end Style

/-- The options of `cat`. -/
def options : OptionTable where
  plain := "AbeEnstTuv".toList
  valued := []
  words := [("number-nonblank", 'b'), ("number", 'n'), ("squeeze-blank", 's'),
    ("show-nonprinting", 'v'), ("show-ends", 'E'), ("show-tabs", 'T'), ("show-all", 'A')]
  anywhere := true

/-! ### Lines -/

/-- A byte that has a spelling. -/
def spell (b : UInt8) : Bytes :=
  if b < 32 then [94, b + 64]
  else if b < 127 then [b]
  else if b = 127 then [94, 63]
  else if b < 160 then [77, 45, 94, b - 64]
  else if b < 255 then [77, 45, b - 128]
  else [77, 45, 94, 63]

/-- Where the copy stands. -/
structure Progress where
  /-- Whether a line starts here. -/
  atStart : Bool
  /-- How many empty lines are directly in front of it: none, one, or more. -/
  emptyLines : Nat
  /-- The number of the last line that has one. -/
  number : Nat
  deriving DecidableEq, Repr

/-- The start of everything. -/
def Progress.start : Progress := ⟨true, 0, 0⟩

/-- A number in front of a line. -/
def numberText (n : Nat) : Bytes :=
  Text.encode (String.ofList ((toString n).toList.leftpad 6 ' ')) ++ [9]

/-- A byte as it is copied, when it does not end a line; `next?` is the byte behind it. -/
def copyByte (s : Style) (b : UInt8) (next? : Option UInt8) : Bytes :=
  if b = 9 then if s.showsTabs then spell b else [b]
  else if s.spells then spell b
  else if b = 13 ∧ next? = some 10 ∧ s.showsEnds then spell b
  else [b]

/-- The bytes of a file as they are copied, and where the copy stands behind them. -/
def copy (s : Style) : Bytes → Progress → Bytes × Progress
  | [], p => ([], p)
  | b :: bs, p =>
    if b = 10 then
      let isEmpty := p.atStart
      if isEmpty && p.emptyLines ≥ 1 && s.squeezes then copy s bs p
      else
        let isNumbered := isEmpty && s.numbers && !s.numbersNonempty
        let number := if isNumbered then p.number + 1 else p.number
        let (rest, last) :=
          copy s bs ⟨true, if isEmpty then p.emptyLines + 1 else 0, number⟩
        ((if isNumbered then numberText number else []) ++ (if s.showsEnds then [36] else []) ++
          b :: rest, last)
    else
      let isNumbered := p.atStart && s.numbers
      let number := if isNumbered then p.number + 1 else p.number
      let (rest, last) := copy s bs ⟨false, 0, number⟩
      ((if isNumbered then numberText number else []) ++ copyByte s b bs.head? ++ rest, last)

/-! ### Files -/

/-- Whether a file that is read is the one that is written. -/
def isOwnOutput (c : Call) (name : String) : Bool :=
  let place? : Option Place :=
    if name = "-" then c.inputPlace?
    else (c.files.find (.ofOctets name)).toOption.map (·.1)
  place?.isSome && place? == c.outputPlace?

/-- Copies files, one after the other. A file that is written too is not read, unless there is
nothing in it; `wrote` tells whether something has been written. -/
def copyFiles (s : Style) (wrote : Bool) (c : Call) (p : Progress) : List String → Finished
  | [] => c.finish 0 []
  | name :: names =>
    match if name = "-" then c.readAll else c.read name with
    | (.ok content, c') =>
      if isOwnOutput c name && (wrote || !content.isEmpty) then
        let f := (copyFiles s wrote c p names).behind
          (c.message (QuotedName.shown false name ++ ": input file is output file"))
        { f with ending := .exit 1 }
      else
        let (output, p) := copy s content p
        (copyFiles s (wrote || !output.isEmpty) c' p names).behind (.output output)
    | (.error e, c') =>
      let f := (copyFiles s wrote c' p names).behind
        (c.message (QuotedName.shown false name ++ ": " ++ e.reason))
      if name = "-" ∧ e = .badDescriptor then
        f.failing (c.message ("closing standard input: " ++ e.reason))
      else { f with ending := .exit 1 }

/-- Copies the files it is given the names of, or what it can read. -/
def cat : Program :=
  Program.checked <| Program.withOptions options fun r c ↦
    if c.outputFault? = some .badDescriptor then
      c.refuse ("standard output: " ++ IoError.badDescriptor.reason)
    else copyFiles (.ofOptions r) false c .start (if r.names.isEmpty then ["-"] else r.names)

end DocumentMath.Concatenate
