/-!
# Numbers and letters as arguments

A command of the shell may be given options: letters behind a hyphen, some of which take a value,
which is the rest of the text or the next argument. A lone hyphen is no option, and two of them end
the options.
-/

namespace DocumentMath.Shell

/-- The number that the digits of a text write, if it has nothing but digits. -/
def readNumber? (text : String) : Option Nat :=
  if text.isEmpty || !text.toList.all Char.isDigit then none
  else some (text.toList.foldl (fun n c ↦ 10 * n + (c.toNat - 48)) 0)

/-- The options in front of the other arguments. -/
structure ReadLetters where
  /-- Each letter with its value, which is empty if it takes none. -/
  letters : List (Char × String)
  operands : List String

namespace ReadLetters

/-- Whether a letter is there. -/
def has (letter : Char) (r : ReadLetters) : Bool :=
  r.letters.any (·.1 == letter)

/-- Reads the letters of one text, where `rest` are the arguments behind it. Letters in `valued`
take a value. -/
def ofText (known valued : List Char) (rest : List String) :
    List Char → Except String ReadLetters
  | [] => .ok ⟨[], rest⟩
  | c :: cs =>
    if valued.contains c then
      match cs, rest with
      | [], [] => .error ("No arg for -" ++ String.singleton c ++ " option")
      | [], value :: rest => .ok ⟨[(c, value)], rest⟩
      | cs, rest => .ok ⟨[(c, String.ofList cs)], rest⟩
    else if known.contains c then
      (ofText known valued rest cs).map fun r ↦ { r with letters := (c, "") :: r.letters }
    else .error ("Illegal option -" ++ String.singleton c)

/-- Reads the options at the start of so many arguments. -/
def read (known valued : List Char) : (count : Nat) → List String → Except String ReadLetters
  | count + 1, text :: rest =>
    match text.toList with
    | ['-', '-'] => .ok ⟨[], rest⟩
    | '-' :: c :: cs => do
      let r ← ofText known valued rest (c :: cs)
      let more ← read known valued count r.operands
      return { more with letters := r.letters ++ more.letters }
    | _ => .ok ⟨[], text :: rest⟩
  | _, arguments => .ok ⟨[], arguments⟩

/-- Reads the options at the start of arguments. -/
def ofArguments (known valued : String) (arguments : List String) : Except String ReadLetters :=
  read known.toList valued.toList arguments.length arguments

end ReadLetters

end DocumentMath.Shell
