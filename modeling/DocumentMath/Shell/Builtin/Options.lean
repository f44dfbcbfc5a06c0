import DocumentMath.Shell.Builtin.Variables

/-!
# Commands about options and arguments

A script can switch the options of the shell and give it other arguments, and it can read the
options among arguments.
-/

namespace DocumentMath.Shell.Builtin

/-! ### Options of the shell -/

/-- Switches the option with a letter. -/
def switchLetter (x : Context) (on : Bool) (letter : Char) : Action Unit := do
  if !(State.optionNames.lookup letter).isSome || letter < 'A' then
    Action.die x ("Illegal option -" ++ String.singleton letter)
  else if letter = 'm' ∧ on then
    Action.complain x "can't access tty; job control turned off"
  else Action.set (·.switchOption on letter)

/-- Switches the option with a name. -/
def switchNamed (x : Context) (on : Bool) (name : String) : Action Unit := do
  match State.optionNames.find? (·.2 == name) with
  | some (letter, _) => Action.set (·.switchOption on letter)
  | none => Action.die x ("Illegal option -o " ++ name)

/-- Lists the options, as a table or as commands. -/
def listOptions (x : Context) (asTable : Bool) : Action Unit := do
  let st ← get
  if asTable then
    Action.printLines x 0 ("Current option settings" :: State.optionNames.map fun (letter, name) ↦
      let padding := String.ofList (List.replicate (16 - name.length) ' ')
      name ++ padding ++ if st.hasOption letter then "on" else "off")
  else
    Action.printLines x 0 (State.optionNames.map fun (letter, name) ↦
      "set " ++ (if st.hasOption letter then "-" else "+") ++ "o " ++ name)

/-- Switches the options of one argument. What is left of the arguments behind it comes along, since
some of them may be names of options. -/
def switchAll (x : Context) (on : Bool) : List Char → List String → Action (List String)
  | [], rest => return rest
  | 'o' :: cs, rest => do
    match rest with
    | [] => listOptions x on
    | name :: _ => switchNamed x on name
    switchAll x on cs (rest.drop 1)
  | c :: cs, rest => do
    switchLetter x on c
    switchAll x on cs rest

/-- Switches the options in front of at most so many arguments. The arguments behind them come
along, if the shell gets any. -/
def readOptions (x : Context) : (count : Nat) → List String → Action (Option (List String))
  | count + 1, text :: rest => do
    match text.toList with
    | ['-'] => do
      Action.set fun s ↦ (s.switchOption false 'x').switchOption false 'v'
      return if rest.isEmpty then none else some rest
    | ['-', '-'] => return some rest
    | '-' :: cs => readOptions x count (← switchAll x true cs rest)
    | '+' :: cs => readOptions x count (← switchAll x false cs rest)
    | _ => return some (text :: rest)
  | _, _ => return none

/-- Switches options and gives the shell other arguments, or lists all variables. -/
def setOptions : Builtin := fun x arguments ↦ do
  Action.setStatus 0
  if arguments.isEmpty then
    let st ← get
    Action.printLines x 0 ((sortedBindings st.toSettings).filterMap fun (name, v) ↦
      v.value?.map (definitionOf name))
  else
    if let some texts ← readOptions x arguments.length arguments then
      Action.set ({ · with arguments := .ofTexts texts })

/-- Leaves out the first arguments, one unless another number is given. -/
def shift : Builtin := fun x arguments ↦ do
  let count ← Action.number x (arguments.head?.getD "1")
  let texts := (← get).arguments.texts
  if texts.length < count then Action.die x "can't shift that many"
  else
    Action.set ({ · with arguments := .ofTexts (texts.drop count) })
    Action.setStatus 0

/-! ### Options among arguments -/

/-- The letter of an option that has been read. -/
structure OptionRead where
  letter : Char
  /-- What is left of the argument the letter stands in. -/
  rest : List Char
  /-- How many arguments have been read, with that one. -/
  count : Nat

/-- Reads the letter of an option. There is none in front of an argument that is none, but two
hyphens are passed over; the number of arguments that have been read is told. -/
def nextLetter (arguments : Arguments) (texts : List String) : Except Nat OptionRead :=
  let count := arguments.nextOption - 1
  let current : List Char :=
    match arguments.optionOffset?, texts[count - 1]? with
    | some offset, some text => if count = 0 then [] else text.toList.drop offset
    | _, _ => []
  match current with
  | c :: cs => .ok ⟨c, cs, count⟩
  | [] =>
    match (texts[count]?).map String.toList with
    | some ['-', '-'] => .error (count + 1)
    | some ('-' :: c :: cs) => .ok ⟨c, cs, count + 1⟩
    | _ => .error count

/-- Whether a letter is an option among those that are listed, and whether it takes a value. -/
def optionKind? (letter : Char) : List Char → Option Bool
  | [] => none
  | c :: ':' :: cs => if c = letter then some true else optionKind? letter cs
  | c :: cs => if c = letter then some false else optionKind? letter cs

/-- What becomes of variables when an option has been read. -/
structure OptionFound where
  /-- What counts as the option. -/
  letter : Char
  value? : Option String
  complaint? : Option String
  rest : List Char
  count : Nat

/-- Looks up an option that has been read, and its value. If the list starts with a colon, mistakes
are told in the variables and not as complaints. -/
def findOption (known : List Char) (texts : List String) (r : OptionRead) : OptionFound :=
  let letter := String.singleton r.letter
  let isQuiet := known.head? == some ':'
  match optionKind? r.letter known with
  | none =>
    if isQuiet then ⟨'?', some letter, none, r.rest, r.count⟩
    else ⟨'?', none, some ("Illegal option -" ++ letter), r.rest, r.count⟩
  | some false => ⟨r.letter, some "", none, r.rest, r.count⟩
  | some true =>
    match r.rest, texts[r.count]? with
    | c :: cs, _ => ⟨r.letter, some (String.ofList (c :: cs)), none, [], r.count⟩
    | [], some value => ⟨r.letter, some value, none, [], r.count + 1⟩
    | [], none =>
      if isQuiet then ⟨':', some letter, none, [], r.count⟩
      else ⟨'?', none, some ("No arg for -" ++ letter ++ " option"), [], r.count⟩

/-- Takes note of how far options have been read. -/
def leaveOptions (x : Context) (count : Nat) (offset? : Option Nat) (name letter : String) :
    Action Unit := do
  Action.assign x "OPTIND" (toString (count + 1))
  Action.assign x name letter
  Action.set fun s ↦ { s with arguments := ⟨s.arguments.texts, count + 1, offset?⟩ }

/-- Reads the next option among arguments, those of the shell unless others are given. -/
def getopts : Builtin := fun x arguments ↦ do
  let r ← Action.letters x "" "" arguments
  match r.operands with
  | known :: name :: others => do
    let own := (← get).arguments
    let texts := if others.isEmpty then own.texts else others
    let state := if texts.length + 1 < own.nextOption then .ofTexts own.texts else own
    match nextLetter state texts with
    | .error count => do
      leaveOptions x count none name "?"
      Action.setStatus 1
    | .ok read => do
      let found := findOption known.toList texts read
      if let some complaint := found.complaint? then Action.writeLine 2 complaint
      match found.value? with
      | some value => Action.assign x "OPTARG" value
      | none => Action.set (·.bind "OPTARG" .absent)
      let length := ((texts[found.count - 1]?).getD "").length
      let offset? := if found.rest.isEmpty then none else some (length - found.rest.length)
      leaveOptions x found.count offset? name (String.singleton found.letter)
      Action.setStatus 0
  | _ => Action.die x "Usage: getopts optstring var [arg...]"

end DocumentMath.Shell.Builtin
