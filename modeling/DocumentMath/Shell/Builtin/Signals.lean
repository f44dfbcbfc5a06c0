import DocumentMath.Shell.Builtin.Jumps
import DocumentMath.Shell.Builtin.Source
import DocumentMath.Shell.Inner

/-!
# Commands about signals and processes

A script can send signals, say what is to be done when one arrives, and wait for what runs beside
the shell.
-/

namespace DocumentMath.Shell

/-! ### Names of signals -/

namespace Signal

/-- The names of all signals, by their numbers; the exit of the shell counts as one. -/
def names : List String :=
  let distance (sign : String) (n : Nat) : String := sign ++ toString n
  "EXIT" :: (Ending.signalNames.set 15 "16" ++ ["32", "33", "RTMIN"] ++
    (List.range 15).map (fun i ↦ distance "RTMIN+" (i + 1)) ++
    (List.range 14).map (fun i ↦ distance "RTMAX-" (14 - i)) ++ ["RTMAX"])

/-- The number of a signal, which is given by its number or, from `first` on, by its name. -/
def number? (first : Nat) (text : String) : Option Nat :=
  match readNumber? text with
  | some n => if n < names.length then some n else none
  | none =>
    ((names.drop first).findIdx? fun name ↦ name == text.map Char.toUpper).map (· + first)

end Signal

namespace Builtin

/-! ### Sending signals -/

/-- Writes the names of all signals, or of the one that has ended a command with a status. -/
def listSignals (x : Context) : List String → Action Unit
  | [] => Action.printLines x 0 ("0" :: Signal.names.drop 1)
  | text :: _ => do
    let n ← Action.number x text
    match Signal.names[if 128 < n then n - 128 else n]?, n with
    | some name, _ + 1 => Action.printLines x 0 [name]
    | _, _ => Action.die x ("invalid signal number or exit status: " ++ text)

/-- Whether a signal does nothing to a script beside the shell. -/
def isIgnored (j : Job) (signal : Nat) : Bool :=
  Ending.harmlessSignals.contains signal || [2, 3].contains signal ||
    j.settings.traps.lookup signal == some ""

/-- Sends a signal to a process, and tells whether there is one. -/
def send (signal process : Nat) : Action Bool := do
  let st ← get
  if process = State.processNumber then
    if signal ≠ 0 then Action.notice signal
    return true
  else
    let sendTo (j : Job) : Job :=
      if j.number = process ∧ !isIgnored j signal then { j with signal? := some signal } else j
    modify ({ · with jobs := st.jobs.map sendTo })
    return st.jobs.any (·.number == process)

/-- Sends a signal to each of several processes. -/
def sendAll (x : Context) (signal : Nat) (texts : List String) : Action Unit := do
  let missing ← texts.filterM fun text ↦ do
    let found ←
      match text.toList with
      | '%' :: _ => Action.die x ("No such job: " ++ text)
      | '-' :: cs =>
        let _ ← Action.number x (String.ofList cs)
        pure false
      | _ => send signal (← Action.number x text)
    if !found then Action.complain x "No such process\n"
    return !found
  Action.setStatus (if missing.isEmpty then 0 else 1)

/-- The signal that an option names. -/
def namedSignal (x : Context) (text : String) : Action Nat :=
  match Signal.number? 1 text with
  | some n => return n
  | none => Action.die x ("invalid signal number or name: " ++ text)

/-- Sends a signal, the fifteenth unless another one is given, or lists signals. -/
def kill : Builtin := fun x arguments ↦ do
  let misuse : Action Unit := Action.die x
    "Usage: kill [-s sigspec | -signum | -sigspec] [pid | job]... or\nkill -l [exitstatus]"
  let direct? := arguments.head?.bind fun text ↦
    match text.toList with
    | '-' :: cs => Signal.number? 1 (String.ofList cs)
    | _ => none
  match direct? with
  | some signal => if arguments.length < 2 then misuse else sendAll x signal (arguments.drop 1)
  | none => do
    let r ← Action.letters x "l" "s" arguments
    let given ← (r.letters.filter (·.1 == 's')).mapM fun (_, text) ↦ namedSignal x text
    if r.has 'l' then
      if !given.isEmpty && !r.operands.isEmpty then misuse else listSignals x r.operands
    else if r.operands.isEmpty then misuse
    else sendAll x (given.getLast?.getD 15) r.operands

/-! ### Obeying signals -/

/-- Sets or forgets what is to be done for signals. -/
def setTraps (script? : Option String) : List String → Action Unit
  | [] => Action.setStatus 0
  | text :: texts => do
    match Signal.number? 0 text with
    | some signal => do
      Action.set fun s ↦
        { s with
          traps := (script?.map (signal, ·)).toList ++ s.traps.filter (·.1 != signal) }
      setTraps script? texts
    | none => do
      Action.writeLine 2 ("trap: " ++ text ++ ": bad trap")
      Action.setStatus 1

/-- Says what is to be done when a signal arrives, or shows it. A hyphen, a signal instead of a
script, and a lone argument let the signal do what it would do otherwise. -/
def trap : Builtin := fun x arguments ↦ do
  let r ← Action.letters x "" "" arguments
  match r.operands with
  | [] =>
    let traps := (← get).traps
    Action.printLines x 0 ((Signal.names.zipIdx).filterMap fun (name, signal) ↦
      (traps.lookup signal).map fun script ↦ "trap -- " ++ sourceOf script ++ " " ++ name)
  | [text] => setTraps none [text]
  | script :: texts =>
    if (readNumber? script).any (· < Signal.names.length) then setTraps none (script :: texts)
    else setTraps (if script = "-" then none else some script) texts

/-! ### Waiting -/

/-- Waits for a script beside the shell. Those that were started before it come first. -/
def waitFor (x : Context) (number : Nat) : Action Unit := do
  let st ← get
  match st.jobs.findIdx? (·.number == number) with
  | some i => do
    modify ({ · with jobs := st.jobs.drop (i + 1) })
    let endings ← (st.jobs.take (i + 1)).mapM (runJob x)
    match endings.getLast? with
    | some (.signal signal) => Action.setStatus (← Action.reportSignal signal)
    | some e => Action.setStatus e.status
    | none => pure ()
  | none => Action.setStatus ((st.finishedJobs.lookup number).getD 127)

/-- Waits for scripts beside the shell, for all of them unless some are given. -/
def wait : Builtin := fun x arguments ↦ do
  let r ← Action.letters x "" "" arguments
  if r.operands.isEmpty then
    runJobs x
    Action.setStatus 0
  else
    r.operands.forM fun text ↦ do
      if text.startsWith "%" then Action.die x ("No such job: " ++ text)
      else waitFor x (← Action.number x text)

/-- Complains that no script has been started so that it could be brought to the front. -/
def resume : Builtin := fun x arguments ↦ do
  match arguments with
  | text :: _ => Action.die x ("No such job: " ++ text)
  | [] => Action.die x "No current job"

end Builtin

end DocumentMath.Shell
