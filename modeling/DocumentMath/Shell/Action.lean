import DocumentMath.Shell.Letters
import DocumentMath.Shell.State

/-!
# Actions of a shell

An `Action` is something that a shell does. It may end with a jump, out of a loop, a function or the
shell; the state lives on.

Signals always go to the outermost shell; the others only pass them on.
-/

namespace DocumentMath.Shell

open Text (Bytes)

/-! ### Actions -/

/-- Where an action goes on that does not go on with the next command. -/
inductive Jump where
  /-- The shell ends. -/
  | finish (e : Ending)
  /-- A mistake ends the shell, unless it was only tried whether there is one. -/
  | fail
  /-- So many loops end. -/
  | leaveLoops (count : Nat)
  /-- So many loops but one end, and that one goes on. -/
  | nextRound (count : Nat)
  | leaveFunction
  /-- A script takes more steps than scripts may take. -/
  | exhaust
  deriving DecidableEq, Repr

/-- Something that a shell does. -/
abbrev Action := ExceptT Jump (StateM State)

/-- What a shell is called, the programs it finds, and what runs the scripts in statements. -/
structure Context where
  name : String
  programs : Programs
  run : Script → Action Unit

namespace Action

/-- Sets the status. -/
def setStatus (status : Nat) : Action Unit :=
  modify (·.withStatus status)

/-- Changes what is set. -/
def set (f : Settings → Settings) : Action Unit :=
  modify (·.setting f)

/-- An action after which something is done to the state, even if it jumps. -/
def andThen {α : Type} (a : Action α) (f : State → State) : Action α :=
  ExceptT.mk do
    let r ← a.run
    modify f
    return r

/-- An action of which no command that fails ends the shell. -/
def tolerating (a : Action Unit) : Action Unit := do
  let old := (← get).tolerates
  set ({ · with tolerates := true })
  andThen a (·.setting ({ · with tolerates := old }))

/-! ### Messages -/

/-- Writes to a stream, if that is possible. -/
def write (stream : Nat) (bs : Bytes) : Action Unit :=
  modify fun st ↦ (st.writeTo stream bs).toOption.getD st

/-- Writes a text and the end of a line. -/
def writeLine (stream : Nat) (text : String) : Action Unit :=
  write stream (messageLine text)

/-- Writes a message of the shell, which says on which line it is and which command of the shell is
being run. -/
def complain (x : Context) (message : String) : Action Unit := do
  let st ← get
  let command := if st.command.isEmpty then "" else st.command ++ ": "
  writeLine 2 (x.name ++ ": " ++ toString st.line ++ ": " ++ command ++ message)

/-- Fails with a message. -/
def failWith (x : Context) (status : Nat) (message : String) : Action Unit := do
  complain x message
  setStatus status

/-- Ends the shell with a message. -/
def die {α : Type} (x : Context) (message : String) : Action α := do
  complain x message
  setStatus 2
  throw .fail

/-- Writes what a command of the shell has to say, if that is anything. The command has a status; it
fails if it cannot write. -/
def print (x : Context) (status : Nat) (bs : Bytes) : Action Unit := do
  let st ← get
  match if bs.isEmpty then .ok st else st.writeTo 1 bs with
  | .ok st => MonadState.set (st.withStatus status)
  | .error _ => failWith x (status ||| 1) (st.command ++ ": I/O error")

/-- Writes lines. -/
def printLines (x : Context) (status : Nat) (texts : List String) : Action Unit :=
  print x status (texts.flatMap messageLine)

/-- The number that a text is, which has to be one. -/
def number (x : Context) (text : String) : Action Nat :=
  match readNumber? text with
  | some n => return n
  | none => die x ("Illegal number: " ++ text)

/-- The options that are letters, in front of other arguments, of which there may be others only by
mistake. -/
def letters (x : Context) (known valued : String) (arguments : List String) :
    Action ReadLetters :=
  match ReadLetters.ofArguments known valued arguments with
  | .ok r => return r
  | .error message => die x message

/-! ### Variables -/

/-- Gives a value to a variable, or ends the shell if the value cannot be changed. -/
def assign (x : Context) (name value : String) : Action Unit := do
  if ((← get).find name).isFixed then die x (name ++ ": is read only")
  else set (·.assign name value)

/-- Remembers variables as they are, to restore them when the innermost command with variables of
its own is through. -/
def keepVariables (names : List String) : Action Unit :=
  set fun s ↦
    let kept := names.map fun name ↦ (name, s.find name)
    match s.frames with
    | [] => s
    | f :: fs => { s with frames := (kept ++ f) :: fs }

/-- An action with variables of its own. -/
def withFrame {α : Type} (a : Action α) : Action α := do
  set fun s ↦ { s with frames := [] :: s.frames }
  andThen a (·.setting fun s ↦
    { (s.frames.head?.getD []).foldl (fun s (name, v) ↦ s.bind name v) s with
      frames := s.frames.drop 1 })

/-! ### Signals -/

/-- Takes note of a signal. The outermost shell ends at once unless it is harmless, or something is
to be done. -/
def notice (signal : Nat) : Action Unit := do
  let st ← get
  if !st.isInner && !Ending.harmlessSignals.contains signal &&
      ((st.traps.lookup signal).isNone || signal = 9) then
    throw (.finish (.signal signal))
  else modify ({ · with arrived := st.arrived ++ [signal] })

/-- Says that a process has been ended by a signal, and with which status it counts. -/
def reportSignal (signal : Nat) : Action Nat := do
  if signal ≠ 2 ∧ signal ≠ 13 then
    writeLine 2 ((Ending.signalDescriptions[signal - 1]?).getD
      ("Unknown signal " ++ toString signal))
  return 128 + signal

end Action

end DocumentMath.Shell
