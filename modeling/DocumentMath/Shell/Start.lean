import DocumentMath.Shell.Run

/-!
# The shell as a program

A shell runs the lines of a script: a text that it is given, a file, or what it can read. Options in
front of that switch what a script could switch itself. At the end it does what the script has said
is to be done then, and runs what is left beside it.
-/

namespace DocumentMath.Shell

open Text (Bytes)

/-- How many steps a shell may take. -/
def shellBudget : Nat := 100000

/-- How a shell begins that has a name. -/
def contextOf (name : String) (programs : Programs) : Context :=
  ⟨name, programs, runScript name programs shellBudget⟩

/-- Where the script of a shell comes from. -/
inductive ScriptOrigin where
  | text (script : String)
  | file (name : String)
  /-- What the shell can read. -/
  | input
  deriving DecidableEq, Repr

/-- What a shell is asked to do. -/
structure Request where
  origin : ScriptOrigin
  /-- What the script calls the shell, if it is given another name. -/
  name? : Option String
  arguments : List String

/-- What a shell is asked to do when the arguments in front of these have been read. -/
def Request.of (x : Context) (isText readsInput : Bool) : List String → Action Request
  | [] => if isText then Action.die x "-c requires an argument" else return ⟨.input, none, []⟩
  | text :: rest =>
    if isText then return ⟨.text text, rest.head?, rest.drop 1⟩
    else if readsInput then return ⟨.input, none, text :: rest⟩
    else return ⟨.file text, some text, rest⟩

/-- Switches the options of one argument, and tells whether the next other argument is the script.
-/
def switchFirst (x : Context) (on : Bool) (letters : List Char) (rest : List String) :
    Action (Bool × List String) := do
  let others := letters.filter fun c ↦ c != 'c' && c != 'l'
  return (letters.contains 'c', ← Builtin.switchAll x on others rest)

/-- Reads what a shell is asked to do from at most so many arguments. -/
def readRequest (x : Context) : (count : Nat) → (isText : Bool) → List String → Action Request
  | count + 1, isText, text :: rest => do
    let finish (arguments : List String) : Action Request := do
      Request.of x isText ((← get).hasOption 's') arguments
    match text.toList with
    | ['-'] | ['-', '-'] => finish rest
    | '-' :: cs => do
      let (more, rest) ← switchFirst x true cs rest
      readRequest x count (isText || more) rest
    | '+' :: cs => do
      let (more, rest) ← switchFirst x false cs rest
      readRequest x count (isText || more) rest
    | _ => finish (text :: rest)
  | _, isText, arguments => do Request.of x isText ((← get).hasOption 's') arguments

/-- The script of a shell. -/
def scriptOf (x : Context) : ScriptOrigin → Action String
  | .text script => return script
  | .file name => do
    match ← Builtin.scriptContent name with
    | .ok content => return Text.octets content
    | .error e => Action.die x (openFailure name e)
  | .input => do
    let content := ((← get).contentOf 0).toOption.getD []
    modify (·.leaveIn 0 [])
    Action.set (·.switchOption true 's')
    return Text.octets content

/-- Does what a shell is asked to do, up to its end. -/
def runRequest (programs : Programs) (c : Call) : Action Unit := do
  let x := contextOf c.name programs
  let r ← readRequest x c.arguments.length false c.arguments
  let script ← scriptOf x r.origin
  let x := contextOf (r.name?.getD c.name) programs
  Action.set ({ · with arguments := .ofTexts r.arguments })
  let e ← toEnd x (runText x script)
  runJobs x
  throw (.finish e)

/-- How a shell ends that has been left by a jump. -/
def endingOf (st : State) : Except Jump Unit → Ending
  | .error (.finish e) => e
  | .error .exhaust => .signal 9
  | .error .fail => .exit 2
  | _ => .exit st.status

/-- What is left of what the shell can read. -/
def restOf (s : Streams) : Bytes :=
  match s.openings.toList with
  | ⟨.source rest, _, _⟩ :: _ => rest
  | _ => []

/-- The shell. -/
def shell (programs : Programs) : Program := fun c ↦
  let (result, st) := (runRequest programs c).run.run (.initial [] [] c)
  ⟨endingOf st result, st.written.reverse, restOf st.toStreams,
    { st.files with workingDirectory := c.files.workingDirectory }⟩

end DocumentMath.Shell
