import DocumentMath.Command.Options
import DocumentMath.Command.QuotedName

/-!
# Counting

`wc` counts the lines, words and bytes of files, and can tell how long the longest line is. All of
them together get a line too.
-/

namespace DocumentMath.Tally

open Text (Bytes)

/-! ### Counts -/

/-- What is counted. -/
structure Counts where
  lines : Nat
  words : Nat
  bytes : Nat
  longest : Nat
  deriving DecidableEq, Repr

namespace Counts

/-- Nothing. -/
def zero : Counts := ⟨0, 0, 0, 0⟩

/-- The counts of two texts together. -/
def add (a b : Counts) : Counts :=
  ⟨a.lines + b.lines, a.words + b.words, a.bytes + b.bytes, max a.longest b.longest⟩

end Counts

/-- The length of a line with a byte behind it, if the byte does not end the line. -/
def widthWith (width : Nat) (b : UInt8) : Nat :=
  if b = 9 then width + (8 - width % 8)
  else if 32 ≤ b ∧ b < 127 then width + 1
  else width

/-- Counts in a text, where `inWord` tells whether a word may go on and `width` how long the line is
so far. Only bytes that can be shown are in words, and all but blanks are. -/
def count (inWord : Bool) (width : Nat) : Bytes → Counts
  | [] => ⟨0, if inWord then 1 else 0, 0, width⟩
  | b :: bs =>
    let endsLine := b == 10 || b == 12 || b == 13
    let isBlank := b == 32 || (9 ≤ b && b ≤ 13)
    let isShown := 32 < b && b < 127
    let rest :=
      count (!isBlank && (inWord || isShown)) (if endsLine then 0 else widthWith width b) bs
    { lines := rest.lines + if b = 10 then 1 else 0
      words := rest.words + if inWord && isBlank then 1 else 0
      bytes := rest.bytes + 1
      longest := max width rest.longest }

/-! ### Lines of counts -/

/-- The options of `wc`. -/
def options : OptionTable where
  plain := "clLmw".toList
  valued := []
  words := [("bytes", 'c'), ("chars", 'm'), ("lines", 'l'), ("words", 'w'),
    ("max-line-length", 'L')]
  anywhere := true

/-- The letters of the counts that are shown. -/
def shownLetters (r : ReadOptions) : List Char :=
  if r.options.isEmpty then ['l', 'w', 'c'] else ['l', 'w', 'm', 'c', 'L'].filter r.has

/-- The count that a letter stands for. -/
def Counts.select (n : Counts) : Char → Nat
  | 'l' => n.lines
  | 'w' => n.words
  | 'L' => n.longest
  | _ => n.bytes

/-- A line of counts, each of which takes at least so many places. -/
def line (letters : List Char) (width : Nat) (n : Counts) (name? : Option String) : Writing :=
  let shown (letter : Char) : String :=
    String.ofList ((toString (n.select letter)).toList.leftpad width ' ')
  .output (messageLine (" ".intercalate (letters.map shown ++ name?.toList)))

/-! ### Files -/

/-- The length of a file, if it is one; or why there is nothing. -/
def lengthOf (c : Call) (name : String) : Except IoError (Option Nat) :=
  if name = "-" then
    match c.inputFault?, c.inputPlace? with
    | some .badDescriptor, _ => .error .badDescriptor
    | none, some _ => .ok (some c.input.length)
    | _, _ => .ok none
  else
    (c.files.lookup (.ofOctets name)).map fun
      | .file content => some content.length
      | _ => none

/-- How many places each count takes: as many as the length of all files together. -/
def widthOf (c : Call) (letters : List Char) (names : List String) : Nat :=
  let lengths := names.map (lengthOf c)
  let isFailed : Except IoError (Option Nat) → Bool
    | .ok _ => false
    | .error _ => true
  if names.length = 1 ∧ letters.length = 1 ∨ lengths.head?.any isFailed then 1
  else
    let found := lengths.filterMap Except.toOption
    let total := (found.filterMap id).foldl (· + ·) 0
    max (toString total).length (if found.contains none then 7 else 1)

/-- The complaint about a file. -/
def complaint (c : Call) (name : String) (e : IoError) : Writing :=
  c.message
    ((if name = "-" then "'standard input'" else QuotedName.shown false name) ++ ": " ++ e.reason)

/-- How counts are shown. -/
structure Layout where
  letters : List Char
  width : Nat
  /-- Whether the names of files are shown. -/
  isNamed : Bool
  /-- Whether there is a line for all files together. -/
  hasTotal : Bool

/-- The line for a file. -/
def Layout.fileLine (l : Layout) (n : Counts) (name : String) : Writing :=
  line l.letters l.width n (if l.isNamed then some name else none)

/-- Counts in files, one after the other. -/
def countFiles (l : Layout) (c : Call) (total : Counts) : List String → Finished
  | [] => c.finish 0 (if l.hasTotal then [line l.letters l.width total (some "total")] else [])
  | name :: names =>
    match if name = "-" then c.readAll else c.read name with
    | (.ok content, c) =>
      let n := count false 0 content
      (countFiles l c (total.add n) names).behind (l.fileLine n name)
    | (.error e, c) =>
      let f := countFiles l c total names
      let f := if name = "-" || e == .isADirectory then f.behind (l.fileLine .zero name) else f
      let f := if name = "-" ∧ e = .badDescriptor then f.failing (c.message ("-: " ++ e.reason))
        else f
      { f.behind (complaint c name e) with ending := .exit 1 }

/-- Counts in files, or in what can be read. -/
def wc : Program :=
  Program.checked <| Program.withOptions options fun r c ↦
    let letters := shownLetters r
    let names := if r.names.isEmpty then ["-"] else r.names
    countFiles ⟨letters, widthOf c letters names, !r.names.isEmpty, names.length > 1⟩ c .zero names

end DocumentMath.Tally
