import DocumentMath.Shell.Command

/-!
# Running scripts

A shell runs the commands of a script one after the other. In a pipeline each command reads what the
one before it has written, and each has a shell of its own.

Scripts may run forever, so running is bounded: every script inside of a statement takes one step of
a budget, as does every round of a loop. A script without a budget does not go on.
-/

namespace DocumentMath.Shell

open Text (Bytes)

/-! ### Loops -/

/-- A round of a loop. It tells whether another one may follow. -/
def round (a : Action Unit) : Action Bool := do
  Action.set fun s ↦ { s with loops := s.loops + 1 }
  let a : Action Bool := do
    a
    return true
  tryCatch (a.andThen (·.setting fun s ↦ { s with loops := s.loops - 1 })) fun
    | .leaveLoops (n + 1) => if n = 0 then return false else throw (.leaveLoops n)
    | .nextRound (n + 1) => if n = 0 then return true else throw (.nextRound n)
    | j => throw j

/-- Repeats a body as long as a condition holds, or does not hold, for at most so many rounds. The
status is that of the last round. -/
def runLoop (condition body : Action Unit) (untilSuccess : Bool) :
    (rounds : Nat) → (status : Nat) → Action Unit
  | 0, _ => throw .exhaust
  | rounds + 1, status => do
    let goesOn ← round do
      Action.tolerating condition
      if ((← get).status == 0) == untilSuccess then throw (.leaveLoops 1)
    if goesOn then
      if ← round body then runLoop condition body untilSuccess rounds (← get).status
    else Action.setStatus status

/-- Runs a body for each value of a variable. -/
def runEach (x : Context) (name : String) (body : Action Unit) : List String → Action Unit
  | [] => pure ()
  | v :: vs => do
    Action.assign x name v
    if ← round body then runEach x name body vs

/-! ### Statements -/

/-- Runs a script, which succeeds if there is nothing to run. -/
def runAny (x : Context) (s : Script) : Action Unit :=
  if s.isEmpty then Action.setStatus 0 else x.run s

/-- Runs the first script of which a pattern matches a text. -/
def runArms (x : Context) (text : List Char) : List (List Word × Script) → Action Unit
  | [] => Action.setStatus 0
  | (patterns, body) :: arms => do
    if ← patterns.anyM fun w ↦ do return patternMatches (← w.marks x) text then runAny x body
    else runArms x text arms

/-- Whether a command that fails ends the shell. -/
def endsOnFailure (st : State) : Bool :=
  st.hasOption 'e' && !st.tolerates && st.status != 0

/-- Ends the shell if a command that fails does. -/
def checkFailure : Action Unit := do
  let st ← get
  if endsOnFailure st then throw (.finish (.exit (st.status % 256)))

/-- Runs a statement. -/
def runStatement (x : Context) (rounds : Nat) : Statement → Action Unit
  | .simple c => runSimple x c
  | .group body => x.run body
  | .apart line body => do
    modify ({ · with line })
    apart x (x.run body)
  | .aside body => startJob body
  | .branch condition body otherwise => do
    Action.tolerating (x.run condition)
    runAny x (if (← get).status = 0 then body else otherwise)
  | .loop untilSuccess condition body =>
    runLoop (x.run condition) (x.run body) untilSuccess rounds 0
  | .each line name words body => do
    modify ({ · with line })
    let values := (← words.mapM (Word.arguments x)).flatten
    if values.isEmpty then Action.setStatus 0
    runEach x name (x.run body) values
  | .select line word arms => do
    modify ({ · with line })
    runArms x (← Word.text x word).toList arms
  | .define name body => do
    Action.set fun s ↦ { s with functions := (name, body) :: s.functions.filter (·.1 != name) }
    Action.setStatus 0
  | .redirected line body redirections => do
    modify ({ · with line })
    let streams := (← get).streams
    let isPossible ← redirectAll x redirections
    let a : Action Unit := if isPossible then x.run [.alone body] else pure ()
    a.andThen (·.setting ({ · with streams }))
    if !isPossible then
      Action.setStatus 2
      checkFailure

/-! ### Pipelines -/

/-- Runs statements of which each reads what the one before it has written. -/
def runPipe (x : Context) (runOne : Statement → Action Unit) :
    (input? : Option Bytes) → List Statement → Action Unit
  | _, [] => pure ()
  | input?, s :: rest => do
    let stage : Action Unit := do
      if let some bs := input? then modify (·.openStream 0 ⟨.source bs, true, false⟩)
      runOne s
    if rest.isEmpty then apart x stage
    else
      let bs ← capturing x stage
      runPipe x runOne (some bs) rest

/-- Whether a pipeline that fails ends a shell that stops on failure: a statement made of others
does not, for they would have. -/
def stopsShell : List Statement → Bool
  | [.simple _] => true
  | [.apart _ _] => true
  | [_] => false
  | _ => true

/-- Runs a pipeline. -/
def runPipeline (x : Context) (runOne : Statement → Action Unit) (stages : List Statement) :
    Action Unit := do
  match stages with
  | [s] => runOne s
  | _ => runPipe x runOne none stages
  obeySignals x
  if stopsShell stages then checkFailure

/-- Whether a pipeline is run after a command with a status. -/
def Joint.applies (status : Nat) : Joint → Bool
  | .always => true
  | .onSuccess => status == 0
  | .onFailure => status != 0

/-- Runs the pipelines of a script, unless the shell only reads scripts. A pipeline may fail if it
is negated or another one depends on it. -/
def runLinks (x : Context) (runOne : Statement → Action Unit) : Script → Action Unit
  | [] => pure ()
  | .pipeline joint negated stages :: ls => do
    let st ← get
    if joint.applies st.status && !st.hasOption 'n' then
      if negated then
        Action.tolerating (runPipeline x runOne stages)
        modify fun st ↦ st.withStatus (if st.status = 0 then 1 else 0)
      else if ls.head?.any (·.joint != .always) then
        Action.tolerating (runPipeline x runOne stages)
      else runPipeline x runOne stages
    runLinks x runOne ls

/-- Runs a script within a budget, in a shell with a name that finds programs. -/
def runScript (name : String) (programs : Programs) : (budget : Nat) → Script → Action Unit
  | 0, _ => throw .exhaust
  | budget + 1, s =>
    let x : Context := ⟨name, programs, runScript name programs budget⟩
    runLinks x (runStatement x budget) s

end DocumentMath.Shell
