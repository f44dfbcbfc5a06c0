import DocumentMath.Shell.Fields
import DocumentMath.Shell.Source
import DocumentMath.Shell.Stream

/-!
# The state of a shell

What scripts set concerns one shell and is lost with it: a shell that is started by another one
begins with what the other one has set. What has been written and read, and files, are the same for
all of them.

All texts are texts of octets.
-/

namespace DocumentMath.Shell

open Text (Bytes)

/-! ### Settings -/

/-- A variable. -/
structure Variable where
  /-- The value, if there is one. -/
  value? : Option String
  /-- Whether programs are told the value. -/
  isExported : Bool
  /-- Whether the value cannot be changed. -/
  isFixed : Bool
  deriving DecidableEq, Repr

namespace Variable

/-- A variable that nobody has mentioned. -/
def absent : Variable := ⟨none, false, false⟩

/-- Whether somebody has mentioned the variable. -/
def isPresent (v : Variable) : Bool :=
  v != absent

end Variable

/-- Arguments, and how far options have been read among them. -/
structure Arguments where
  texts : List String
  /-- The number of the argument that is read next. -/
  nextOption : Nat
  /-- How many characters of the argument before have been read, unless all have. -/
  optionOffset? : Option Nat
  deriving DecidableEq, Repr

namespace Arguments

/-- Arguments among which no options have been read. -/
def ofTexts (texts : List String) : Arguments := ⟨texts, 1, none⟩

end Arguments

/-- What scripts set. -/
structure Settings where
  /-- The openings that streams lead to; a stream that is not there is closed. -/
  streams : List (Nat × Nat)
  arguments : Arguments
  bindings : List (String × Variable)
  functions : List (String × Statement)
  aliases : Aliases
  /-- For each command that has variables of its own, the innermost first: these variables as they
  are outside. -/
  frames : List (List (String × Variable))
  /-- How many functions have been entered and not left. -/
  depth : Nat
  /-- How many loops of a function, or outside of functions, have been entered. -/
  loops : Nat
  /-- What is run when a signal arrives, or when the shell exits, which counts as the signal zero.
  -/
  traps : List (Nat × String)
  /-- The letters of the options that are switched on. -/
  options : List Char
  /-- Whether a command may fail even if commands that fail end the shell. -/
  tolerates : Bool
  /-- Whether the shell has been started by another one. -/
  isInner : Bool
  /-- The command of the shell that is being run; it may run others. -/
  command : String
  /-- The status in front of the script that is run for a signal or when the shell exits. -/
  trapStatus? : Option Nat
  /-- The number of the last script that was started beside the shell. -/
  lastJob? : Option Nat
  /-- The permissions that new files do not get. -/
  mask : Nat
  /-- The programs that have been looked up by their names, and their paths. -/
  known : List (String × String)

namespace Settings

/-- A variable. -/
def find (name : String) (s : Settings) : Variable :=
  (s.bindings.lookup name).getD .absent

/-- The settings with a variable. -/
def bind (name : String) (v : Variable) (s : Settings) : Settings :=
  { s with
    bindings :=
      (if v.isPresent then [(name, v)] else []) ++ s.bindings.filter (·.1 != name) }

/-- The settings with a value of a variable. A value for the number of the next option starts the
reading of options again. -/
def assign (name value : String) (s : Settings) : Settings :=
  let v := s.find name
  let s := bind name { v with
    value? := some value, isExported := v.isExported || s.options.contains 'a' } s
  if name = "OPTIND" then
    { s with arguments := ⟨s.arguments.texts, max 1 (value.toNat?.getD 1), none⟩ }
  else if name = "PATH" then { s with known := [] }
  else s

/-- The settings with an option switched on or off. -/
def switchOption (on : Bool) (letter : Char) (s : Settings) : Settings :=
  { s with options := (if on then [letter] else []) ++ s.options.filter (· != letter) }

end Settings

/-- A script that runs beside the shell. -/
structure Job where
  number : Nat
  body : Script
  /-- What was set when it was started. -/
  settings : Settings
  workingDirectory : Place
  /-- The signal that has ended it before it was run, if one has. -/
  signal? : Option Nat

/-- What a shell has read, written and set. -/
structure State extends Settings, Streams where
  /-- The status of the last command. -/
  status : Nat
  /-- The status of the last script whose output the command refers to, if there is one. -/
  outputStatus? : Option Nat
  /-- The line of the last command. -/
  line : Nat
  /-- The line up to which the shell has read its script. -/
  readLine : Nat
  /-- The signals that have arrived and not been looked at. -/
  arrived : List Nat
  /-- The scripts beside the shell that have not been run yet. -/
  jobs : List Job
  /-- The statuses of those that have been run. -/
  finishedJobs : List (Nat × Nat)
  /-- How many have been started. -/
  jobCount : Nat

namespace State

/-- The number of the shell's process. -/
def processNumber : Nat := 1000

/-- The options that a shell has, in the order in which they are listed. -/
def optionNames : List (Char × String) :=
  [('e', "errexit"), ('f', "noglob"), ('I', "ignoreeof"), ('i', "interactive"), ('m', "monitor"),
    ('n', "noexec"), ('s', "stdin"), ('x', "xtrace"), ('v', "verbose"), ('V', "vi"),
    ('E', "emacs"), ('C', "noclobber"), ('a', "allexport"), ('b', "notify"), ('u', "nounset"),
    ('p', "privileged"), ('\x00', "nolog"), ('\x01', "debug")]

/-- Whether an option is switched on. -/
def hasOption (letter : Char) (st : State) : Bool :=
  st.options.contains letter

/-- The state with a status. -/
def withStatus (status : Nat) (st : State) : State :=
  { st with status }

/-- The state in which something else is set. -/
def setting (f : Settings → Settings) (st : State) : State :=
  { st with toSettings := f st.toSettings }

/-! ### Variables -/

/-- The value of a variable. -/
def valueOf? (st : State) (name : String) : Option String :=
  (st.toSettings.find name).value?

/-- The characters that stand between the fields of a text. -/
def separators (st : State) : List Char :=
  ((st.valueOf? "IFS").map String.toList).getD defaultSeparators

/-- The variables that programs are told. -/
def environment (st : State) : List (String × String) :=
  st.bindings.filterMap fun (name, v) ↦
    if v.isExported then v.value?.map (name, ·) else none

/-! ### Streams -/

/-- The opening that a stream leads to. -/
def opening? (stream : Nat) (st : State) : Option Nat :=
  st.streams.lookup stream

/-- The state in which a stream leads to an opening, or is closed. -/
def setStream (stream : Nat) (index? : Option Nat) (st : State) : State :=
  { st with
    streams := (index?.map (stream, ·)).toList ++ st.streams.filter (·.1 != stream) }

/-- The state in which a stream leads to a new opening. -/
def openStream (stream : Nat) (o : Opening) (st : State) : State :=
  let (index, s) := st.toStreams.add o
  { st with toStreams := s }.setStream stream (some index)

/-- What can be read from a stream. -/
def contentOf (stream : Nat) (st : State) : Except IoError Bytes :=
  match st.opening? stream with
  | some index => st.toStreams.content index
  | none => .error .badDescriptor

/-- The state once all but `rest` has been read from a stream. -/
def leaveIn (stream : Nat) (rest : Bytes) (st : State) : State :=
  match st.opening? stream with
  | some index => { st with toStreams := st.toStreams.leave rest index }
  | none => st

/-- Writes to a stream. -/
def writeTo (stream : Nat) (bs : Bytes) (st : State) : Except IoError State :=
  match st.opening? stream with
  | some index => (st.toStreams.write bs index).map fun s ↦ { st with toStreams := s }
  | none => .error .badDescriptor

/-- The error of a program that writes to a stream. -/
def writeFault? (stream : Nat) (st : State) : Option IoError :=
  match st.writeTo stream [0] with
  | .ok _ => none
  | .error e => some e

/-- The place of the file that a stream leads to, if it leads to one. -/
def placeOf? (stream : Nat) (st : State) : Option Place :=
  match (st.opening? stream).bind (st.openings[·]?) with
  | some ⟨.file place _ _, _, _⟩ => some place
  | _ => none

/-- The path of a place. -/
def pathOf (p : Place) : String :=
  Text.toOctets ("/" ++ "/".intercalate p)

/-! ### The start -/

/-- A shell that has done nothing. -/
def initial (arguments : List String) (options : List Char) (c : Call) : State where
  streams := [(0, 0), (1, 1), (2, 2)]
  arguments := .ofTexts arguments
  bindings :=
    ("PWD", ⟨some (pathOf c.files.workingDirectory), true, false⟩) ::
    ("OPTIND", ⟨some "1", false, false⟩) :: ("PS1", ⟨some "# ", false, false⟩) ::
    ("PS2", ⟨some "> ", false, false⟩) :: ("PS4", ⟨some "+ ", false, false⟩) ::
    ("IFS", ⟨some (String.ofList defaultSeparators), false, false⟩) ::
    (c.environment.filter fun (name, _) ↦ isVariableName name.toList && name != "PWD").map
      fun (name, value) ↦ (name, ⟨some value, true, false⟩)
  functions := []
  aliases := []
  frames := []
  depth := 0
  loops := 0
  traps := []
  options
  tolerates := false
  isInner := false
  command := ""
  trapStatus? := none
  lastJob? := none
  mask := 0o22
  known := []
  openings :=
    #[⟨(c.inputFault?.map Channel.broken).getD (.source c.input), true, false⟩,
      ⟨(c.outputFault?.map Channel.broken).getD .output, false, true⟩,
      ⟨.errors, false, true⟩]
  written := []
  pipes := #[]
  files := c.files
  status := 0
  outputStatus? := none
  line := 0
  readLine := 1
  arrived := []
  jobs := []
  finishedJobs := []
  jobCount := 0

end State

end DocumentMath.Shell
