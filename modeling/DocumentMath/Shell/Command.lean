import DocumentMath.Shell.Builtin.Directories
import DocumentMath.Shell.Builtin.Names
import DocumentMath.Shell.Builtin.Options
import DocumentMath.Shell.Builtin.Reading
import DocumentMath.Shell.Builtin.Signals
import DocumentMath.Shell.Condition
import DocumentMath.Shell.Format
import DocumentMath.Shell.Redirect

/-!
# Simple commands

The first word of a simple command stands for a command of the shell, a function, or a program.
Before it is run, its words are expanded, its streams redirected and its variables set, in this
order.

Some commands of the shell concern it so much that no function can replace them. What is assigned in
front of them lives on behind them, and a mistake in one of them ends the shell.
-/

namespace DocumentMath.Shell

open Text (Bytes)

/-! ### Programs -/

/-- What a program is given that a shell runs. -/
def callOf (name : String) (arguments : List String) (st : State) : Call :=
  let input := st.contentOf 0
  { name
    arguments
    environment := st.environment
    input := input.toOption.getD []
    inputFault? :=
      match input with
      | .ok _ => none
      | .error e => some e
    outputFault? := st.writeFault? 1
    inputPlace? := st.placeOf? 0
    outputPlace? := st.placeOf? 1
    files := st.files }

/-- Writes what a program has written. -/
def passOn : Writing → Action Unit
  | .output bs => Action.write 1 bs
  | .errors bs => Action.write 2 bs

/-- Runs a program and tells how it has ended. -/
def runProgram (program : Program) (name : String) (arguments : List String) : Action Ending := do
  let c := callOf name arguments (← get)
  let f := program c
  modify fun st ↦
    { if c.inputFault?.isSome then st else st.leaveIn 0 f.rest with
      files := { f.files with workingDirectory := st.files.workingDirectory } }
  f.written.forM passOn
  return f.ending

/-- The program that a name stands for, or a complaint and a status. -/
def programNamed (x : Context) (name : String) : Action (Except (Nat × String) Program) := do
  let refused (status : Nat) (e : IoError) : Except (Nat × String) Program :=
    .error (status, name ++ ": " ++ ioReason "not found" e)
  match ← locate name with
  | .error e => return refused 127 e
  | .ok path =>
    match findProgram x.programs (← get).files (.ofOctets path) with
    | .ok program => return .ok program
    | .error e =>
      let isMissing := [.notFound, .notADirectory, .nameTooLong].contains e
      return refused (if isMissing then 127 else 126) e

/-- The names of the programs that take some time. -/
def isSlow (name : String) : Bool :=
  (name.splitOn "/").getLast? == some "sleep"

/-- Runs the program that a name stands for. -/
def runNamed (x : Context) (name : String) (arguments : List String) : Action Unit := do
  match ← programNamed x name with
  | .error (status, complaint) => Action.failWith x status complaint
  | .ok program =>
    if isSlow name then runJobs x
    conclude (← runProgram program name arguments)

/-! ### Commands that run others -/

namespace Builtin

/-- Puts a program in the place of the shell, or leaves the shell as it is if none is given. -/
def exec : Builtin := fun x arguments ↦ do
  match arguments with
  | [] => Action.setStatus 0
  | name :: arguments =>
    match ← programNamed x name with
    | .error (status, complaint) => do
      Action.failWith x status complaint
      throw (.finish (.exit status))
    | .ok program => do
      let e ← runProgram program name arguments
      Action.set fun s ↦ { s with traps := s.traps.filter (·.1 != 0) }
      throw (.finish e)

/-- Runs its arguments as a script. -/
def eval : Builtin := fun x arguments ↦
  runWhole x (" ".intercalate arguments)

/-- What a file holds that is read as a script. -/
def scriptContent (name : String) : Action (Except IoError Bytes) := do
  let st ← get
  match st.files.find (.ofOctets name) with
  | .error e => return .error e
  | .ok (_, .device (.stream n)) => do
    modify (·.leaveIn n [])
    return st.contentOf n
  | .ok (_, e) => return .ok (e.content.toOption.getD [])

/-- Runs the script that a file holds. A name without a slash is looked up like the one of a
program. -/
def source : Builtin := fun x arguments ↦ do
  let r ← Action.letters x "" "" arguments
  match r.operands with
  | [] => Action.setStatus 0
  | name :: _ => do
    let st ← get
    let found := if name.toList.contains '/' then Except.ok name else st.search name
    let path ←
      match found with
      | .ok path => pure path
      | .error _ => Action.die x (name ++ ": not found")
    match ← scriptContent path with
    | .error e => Action.die x (openFailure path e)
    | .ok content => do
      Action.set ({ · with command := path })
      tryCatch (strictly (runWhole x (Text.octets content))) fun
        | .leaveFunction => pure ()
        | j => throw j

/-! ### All commands -/

/-- A command that replies. -/
def replying (reply : FileTree → List String → Reply) : Builtin := fun x arguments ↦ do
  let r := reply (← get).files arguments
  r.complaints.forM (Action.complain x)
  Action.print x r.status r.output

/-- A command that only has a status. -/
def constant (status : Nat) : Builtin := fun _ _ ↦
  Action.setStatus status

/-- The commands that no function can replace. -/
def special : List (String × Builtin) :=
  [(":", constant 0), (".", source), ("break", jump .leaveLoops), ("continue", jump .nextRound),
    ("eval", eval), ("exec", exec), ("exit", exit), ("export", «export»), ("local", makeLocal),
    ("readonly", readonly), ("return", leave), ("set", setOptions), ("shift", shift),
    ("times", times), ("trap", trap), ("unset", unset)]

/-- The other commands. -/
def regular : List (String × Builtin) :=
  [("[", replying bracket), ("alias", setAliases), ("bg", resume), ("cd", changeDirectory),
    ("chdir", changeDirectory), ("echo", replying fun _ ↦ echo), ("false", constant 1),
    ("fg", resume), ("getopts", getopts), ("hash", hash), ("jobs", constant 0), ("kill", kill),
    ("printf", replying fun _ ↦ printf), ("pwd", showDirectory), ("read", read),
    ("test", replying test), ("true", constant 0), ("type", type), ("ulimit", ulimit),
    ("umask", umask), ("unalias", unalias), ("wait", wait)]

end Builtin

/-! ### By name -/

/-- Runs a command of the shell. -/
def runBuiltin (x : Context) (name : String) (b : Builtin) (arguments : List String) :
    Action Unit := do
  let old := (← get).command
  Action.set ({ · with command := name })
  (b x arguments).andThen (·.setting ({ · with command := old }))

/-- An action in which a mistake does not end the shell. -/
def attempting (a : Action Unit) : Action Unit :=
  tryCatch a fun
    | .fail => pure ()
    | j => throw j

/-- How many functions may run one another. -/
def depthLimit : Nat := 1000

/-- Runs a function with arguments of its own. -/
def runFunction (x : Context) (body : Statement) (arguments : List String) : Action Unit := do
  let old ← get
  if old.depth ≥ depthLimit then
    Action.die x ("Maximum function recursion depth (" ++ toString depthLimit ++ ") reached")
  Action.set fun s ↦ { s with arguments := .ofTexts arguments, depth := s.depth + 1, loops := 0 }
  let a := (Action.withFrame (x.run [.alone body])).andThen
    (·.setting ({ · with arguments := old.arguments, depth := old.depth, loops := old.loops }))
  tryCatch a fun
    | .leaveFunction => pure ()
    | j => throw j

/-- Runs a command of the shell or a program even if a function has its name, or tells what a name
stands for. -/
def runDirectly (x : Context) (arguments : List String) : Action Unit := do
  let r? : Except String ReadLetters := ReadLetters.ofArguments "pvV" "" arguments
  match r? with
  | .error message => runBuiltin x "command" (fun x _ ↦ attempting (Action.die x message)) []
  | .ok ⟨letters, operands⟩ =>
    match letters.map (·.1) |>.filter (· != 'p') |>.getLast?, operands with
    | _, [] => Action.setStatus 0
    | some letter, name :: _ =>
      runBuiltin x "command" (fun x _ ↦ Builtin.verify (letter == 'V') name x) []
    | none, name :: arguments =>
      match (Builtin.special ++ Builtin.regular).lookup name with
      | some b => attempting (runBuiltin x name b arguments)
      | none => runNamed x name arguments

/-- Runs what a name stands for. -/
def runCommand (x : Context) (name : String) (arguments : List String) : Action Unit := do
  match Builtin.special.lookup name, (← get).functions.lookup name, Builtin.regular.lookup name with
  | some b, _, _ => runBuiltin x name b arguments
  | none, some body, _ => runFunction x body arguments
  | none, none, some b => attempting (runBuiltin x name b arguments)
  | none, none, none =>
    if name = "command" then runDirectly x arguments else runNamed x name arguments

/-! ### Words and variables -/

/-- The commands whose arguments may be assignments. -/
def declarations : List String := ["alias", "export", "local", "readonly"]

/-- The arguments that the words of a command become. -/
def expandWords (x : Context) : List Word → Action (List String)
  | [] => return []
  | w :: ws => do
    match ← w.arguments x with
    | [] => expandWords x ws
    | name :: more => do
      let isDeclaration := declarations.contains name
      let rest ← ws.mapM fun w ↦ if isDeclaration then w.declaration x else w.arguments x
      return name :: more ++ rest.flatten

/-- Gives variables their values, which come along. Programs may be told them. -/
def assignAll (x : Context) (isTold : Bool) (assignments : List (String × Word)) :
    Action (List String) :=
  assignments.mapM fun (name, w) ↦ do
    let value ← w.value x
    if isTold then Action.keepVariables [name]
    Action.assign x name value
    if isTold then Action.set fun s ↦ s.bind name { s.find name with isExported := true }
    return name ++ "=" ++ value

/-- Shows a command before it is run, if the shell has been told so: where messages went before the
command redirected them. -/
def showCommand (x : Context) (opening? : Option Nat) (texts : List String) : Action Unit := do
  let st ← get
  if st.hasOption 'x' then
    Action.set (·.switchOption false 'x')
    let lead ←
      match Word.ofText st.line ((st.valueOf? "PS4").getD "") with
      | .ok w => w.text x
      | .error (mistake, _) => Action.die x mistake.message
    modify fun st' ↦ st'.setting ({ · with options := st.options })
    let bs := messageLine (lead ++ " ".intercalate texts)
    modify fun st ↦
      match opening?.map (st.toStreams.write bs ·) with
      | some (.ok streams) => { st with toStreams := streams }
      | _ => st

/-- Runs a simple command. Where there are only assignments, the status is that of the last script
whose output they refer to. -/
def runSimple (x : Context) (c : SimpleCommand) : Action Unit := do
  modify ({ · with line := c.line, outputStatus? := none })
  let words ← expandWords x c.words
  let errors? := (← get).opening? 2
  match words with
  | [] =>
    redirecting x c.redirections false do
      showCommand x errors? (← assignAll x false c.assignments)
      modify fun st ↦ st.withStatus (st.outputStatus?.getD 0)
  | name :: arguments => do
    let isSpecial := (Builtin.special.lookup name).isSome
    let run (isTold : Bool) : Action Unit := do
      showCommand x errors? ((← assignAll x isTold c.assignments) ++ words)
      runCommand x name arguments
    if words = ["exec"] then
      if ← redirectAll x c.redirections then run false
      else
        Action.setStatus 2
        throw .fail
    else
      redirecting x c.redirections isSpecial
        (if isSpecial || c.assignments.isEmpty then run false else Action.withFrame (run true))

end DocumentMath.Shell
