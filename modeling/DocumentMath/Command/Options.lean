import DocumentMath.Command.Program

/-!
# Options of programs

An option is a letter behind a hyphen, or a word behind two. Letters may share a hyphen, and only
the beginning of a word has to be written where it is clear which one is meant. An option may take a
value: the rest of the text, or the next argument. Two hyphens alone end the options.
-/

namespace DocumentMath

/-- The options that a program has. -/
structure OptionTable where
  /-- The letters of the options without a value. -/
  plain : List Char
  /-- The letters of the options with a value. -/
  valued : List Char
  /-- The words for letters. -/
  words : List (String × Char)
  /-- Whether options may stand behind names. -/
  anywhere : Bool

/-- The arguments of a program. -/
structure ReadOptions where
  /-- The letters, each with its value, which is empty if it takes none. -/
  options : List (Char × String)
  names : List String

namespace ReadOptions

/-- Whether an option is there. -/
def has (r : ReadOptions) (letter : Char) : Bool :=
  r.options.any (·.1 == letter)

/-- The last one of several options. -/
def last? (r : ReadOptions) (letters : List Char) : Option (Char × String) :=
  (r.options.filter (letters.contains ·.1)).getLast?

/-- The arguments with one more option in front. -/
def withOption (letter : Char) (value : String) (r : ReadOptions) : ReadOptions :=
  { r with options := (letter, value) :: r.options }

end ReadOptions

namespace OptionTable

/-- What is read next is a value, and it is a mistake if there is none. -/
structure Pending where
  letter : Char
  mistake : String

/-- The letters of one text. A value may be pending behind them. -/
def readLetters (t : OptionTable) :
    List Char → Except String (List (Char × String) × Option Pending)
  | [] => .ok ([], none)
  | c :: cs =>
    if t.valued.contains c then
      if cs.isEmpty then
        .ok ([], some ⟨c, "option requires an argument -- '" ++ String.singleton c ++ "'"⟩)
      else .ok ([(c, String.ofList cs)], none)
    else if t.plain.contains c then
      (t.readLetters cs).map fun (options, pending?) ↦ ((c, "") :: options, pending?)
    else .error ("invalid option -- '" ++ String.singleton c ++ "'")

/-- The option that a word stands for, of which the end may be missing. A value may be pending
behind it. -/
def readWord (t : OptionTable) (text : String) :
    Except String (List (Char × String) × Option Pending) :=
  let name := text.toList.takeWhile (· != '=')
  let value? : Option String :=
    if name.length < text.length then some (String.ofList (text.toList.drop (name.length + 1)))
    else none
  let found (word : String) (letter : Char) :
      Except String (List (Char × String) × Option Pending) :=
    match t.valued.contains letter, value? with
    | true, some value => .ok ([(letter, value)], none)
    | true, none => .ok ([], some ⟨letter, "option '--" ++ word ++ "' requires an argument"⟩)
    | false, none => .ok ([(letter, "")], none)
    | false, some _ => .error ("option '--" ++ word ++ "' doesn't allow an argument")
  match t.words.find? (·.1 == String.ofList name),
      t.words.filter fun (word, _) ↦ name.isPrefixOf word.toList with
  | some (word, letter), _ => found word letter
  | none, [(word, letter)] => found word letter
  | none, [] => .error ("unrecognized option '--" ++ text ++ "'")
  | none, (word, letter) :: others =>
    if others.all (·.2 == letter) then found word letter
    else
      .error ("option '--" ++ text ++ "' is ambiguous; possibilities:" ++
        String.join (((word, letter) :: others).map fun (w, _) ↦ " '--" ++ w ++ "'"))

/-- Reads arguments, of which the first one may be a value that is pending. -/
def readFrom (t : OptionTable) : Option Pending → List String → Except String ReadOptions
  | none, [] => .ok ⟨[], []⟩
  | some p, [] => .error p.mistake
  | some p, text :: rest => (t.readFrom none rest).map (·.withOption p.letter text)
  | none, text :: rest =>
    let behind (options : List (Char × String)) (pending? : Option Pending) :=
      (t.readFrom pending? rest).map fun r ↦ { r with options := options ++ r.options }
    match text.toList with
    | ['-', '-'] => .ok ⟨[], rest⟩
    | '-' :: '-' :: word =>
      match t.readWord (String.ofList word) with
      | .ok (options, pending?) => behind options pending?
      | .error mistake => .error mistake
    | '-' :: c :: cs =>
      match t.readLetters (c :: cs) with
      | .ok (options, pending?) => behind options pending?
      | .error mistake => .error mistake
    | _ =>
      if t.anywhere then
        (t.readFrom none rest).map fun r ↦ { r with names := text :: r.names }
      else .ok ⟨[], text :: rest⟩

/-- Reads the arguments of a program. -/
def read (t : OptionTable) (arguments : List String) : Except String ReadOptions :=
  t.readFrom none arguments

end OptionTable

namespace Call

/-- The end of a program that is called in a wrong way. -/
def misuse (c : Call) (text : String) : Finished :=
  c.finish 1 [c.message text,
    .errors (messageLine ("Try '" ++ c.name ++ " --help' for more information."))]

end Call

/-- A program that reads its options first. -/
def Program.withOptions (t : OptionTable) (program : ReadOptions → Program) : Program := fun c ↦
  match t.read c.arguments with
  | .ok r => program r c
  | .error mistake => c.misuse mistake

end DocumentMath
