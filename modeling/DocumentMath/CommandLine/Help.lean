import DocumentMath.CommandLine.Description

/-!
# Help

Help tells what a command is for, how it is called, and what it takes. In brief, every option has a
line of its own, which is broken where it gets too long. In detail, every option has a paragraph,
with a list of its values where they can be listed.
-/

namespace DocumentMath.Help

/-- The name of the program. -/
def programName : String := "stemrender"

/-- An entry of a list in a help text. -/
structure Item where
  /-- What is told about. -/
  subject : String
  about : String
  /-- What is added in brackets. -/
  notes : List String
  /-- The only values there are, with what they mean. -/
  choices : List (String × String)

/-! ### Layout -/

/-- The width of a line. -/
def lineWidth : Nat := 100

/-- A blank text of some width. -/
def blanks (width : Nat) : String :=
  String.ofList (List.replicate width ' ')

/-- A text filled up to a width. -/
def padded (width : Nat) (text : String) : String :=
  text ++ blanks (width - text.length)

/-- Words put into lines of some width, of which the first has been begun. -/
def linesFrom (width : Nat) (line : String) : List String → List String
  | [] => [line]
  | w :: ws =>
    if line.length + 1 + w.length ≤ width then linesFrom width (line ++ " " ++ w) ws
    else line :: linesFrom width w ws

/-- A text broken into lines of some width. -/
def lines (width : Nat) (text : String) : List String :=
  match text.splitOn " " with
  | [] => []
  | w :: ws => linesFrom width w ws

/-- The notes of an entry in brackets. -/
def bracketed (notes : List String) : List String :=
  notes.map fun n ↦ "[" ++ n ++ "]"

/-- An entry in brief, whose subject gets some width. -/
def briefItem (width : Nat) (i : Item) : String :=
  let values :=
    if i.choices.isEmpty then []
    else ["possible values: " ++ ", ".intercalate (i.choices.map (·.1))]
  let text := " ".intercalate (i.about :: bracketed (i.notes ++ values))
  "  " ++ padded width i.subject ++ "  " ++
    ("\n" ++ blanks (width + 4)).intercalate (lines (lineWidth - (width + 4)) text) ++ "\n"

/-- How far a paragraph is indented. -/
def indentation : Nat := 10

/-- The list of the values of an entry. -/
def choiceList (choices : List (String × String)) : String :=
  let width := (choices.map (·.1.length)).foldl max 0
  String.join (choices.map fun (name, about) ↦
    blanks indentation ++ "- " ++ padded (width + 2) (name ++ ":") ++ about ++ "\n")

/-- An entry in detail. -/
def detailedItem (i : Item) : String :=
  "  " ++ i.subject ++ "\n" ++ blanks indentation ++ i.about ++ "\n" ++
    (if i.notes.isEmpty then ""
    else blanks indentation ++ "\n" ++
      String.join ((bracketed i.notes).map fun n ↦ blanks indentation ++ n ++ "\n")) ++
    if i.choices.isEmpty then ""
    else "\n" ++ blanks indentation ++ "Possible values:\n" ++ choiceList i.choices

/-- A list under a heading. -/
def itemList (detailed : Bool) (heading : String) (items : List Item) : String :=
  if items.isEmpty then ""
  else
    let width := (items.map (·.subject.length)).foldl max 0
    "\n" ++ heading ++ ":\n" ++
      (if detailed then "\n".intercalate (items.map detailedItem)
      else String.join (items.map (briefItem width)))

/-! ### What is told -/

/-- The entry of an option. -/
def optionItem (o : OptionDescription) : Item where
  subject :=
    ((o.letter?.map fun c ↦ "-" ++ String.singleton c ++ ", ").getD "    ") ++ "--" ++ o.name ++
      ((o.value?.map fun v ↦ " <" ++ v.label ++ ">").getD "")
  about := o.about
  notes := o.fallback?.toList
  choices := (o.value?.map (·.choices)).getD []

/-- The entry of the option that asks for help, where help may be given in detail or not. -/
def helpItem (hasDetails detailed : Bool) : Item where
  subject := "-h, --help"
  about :=
    if !hasDetails then "Print help"
    else if detailed then "Print help (see a summary with '-h')"
    else "Print help (see more with '--help')"
  notes := []
  choices := []

/-- The entry of an operand. -/
def operandItem (o : OperandDescription) : Item :=
  ⟨o.shown, o.about, [], []⟩

/-- How a command is called. -/
def usage (c : CommandDescription) : String :=
  "Usage: " ++ programName ++ " " ++ c.name ++ (if c.options.isEmpty then "" else " [OPTIONS]") ++
    ((c.operand?.map fun o ↦ " " ++ o.shown).getD "") ++ "\n"

/-- Help for a command. -/
def ofCommand (c : CommandDescription) (detailed : Bool) : String :=
  let detailed := detailed && c.hasChoices
  c.about ++ "\n\n" ++ usage c ++
    itemList detailed "Arguments" (c.operand?.map operandItem).toList ++
    itemList detailed "Options" (c.options.map optionItem ++ [helpItem c.hasChoices detailed])

/-- What the command is for that gives help. -/
def aboutHelp : String := "Print this message or the help of the given subcommand(s)"

/-- Help for the command that gives help. -/
def ofHelp : String :=
  aboutHelp ++ "\n\nUsage: " ++ programName ++ " help [COMMAND]...\n" ++
    itemList false "Arguments" [⟨"[COMMAND]...", "Print help for the subcommand(s)", [], []⟩]

/-- How the program is called. -/
def programUsage : String := "Usage: " ++ programName ++ " <COMMAND>\n"

/-- Help for the program, which has some commands. -/
def ofProgram (about : String) (commands : List CommandDescription) : String :=
  about ++ "\n\n" ++ programUsage ++
    itemList false "Commands"
      (commands.map (fun c ↦ ⟨c.name, c.about, [], []⟩) ++ [⟨"help", aboutHelp, [], []⟩]) ++
    itemList false "Options"
      [⟨"-h, --help", "Print help", [], []⟩, ⟨"-V, --version", "Print version", [], []⟩]

end DocumentMath.Help
