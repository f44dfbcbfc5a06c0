import DocumentMath.Shell.Action

/-!
# Shells in shells

A shell runs texts: the lines of a script, what is to be done when a signal arrives, and what is to
be done when it exits. Some of what it runs has a shell of its own, which begins with what the outer
one has set; what it sets is lost. A script may also run beside the shell. Then it is run when
somebody waits for it, and at the latest when the shell is through.
-/

namespace DocumentMath.Shell

open Text (Bytes)

/-- An action in which commands that fail end the shell if it has been told so. -/
def strictly {α : Type} (a : Action α) : Action α := do
  let old := (← get).tolerates
  Action.set ({ · with tolerates := false })
  a.andThen (·.setting ({ · with tolerates := old }))

/-! ### Texts -/

/-- Runs the lines of a text, at most so many, and tells whether there was anything to run. A
mistake ends the shell, once what stands in front of it is done. -/
def runLines (x : Context) : (count : Nat) → Source → (hasRun : Bool) → Action Bool
  | 0, _, hasRun => return hasRun
  | count + 1, s, hasRun => do
    match s.next (← get).aliases with
    | .error (mistake, line) =>
      modify ({ · with line })
      Action.die x mistake.message
    | .ok (script, rest, isOver) => do
      modify ({ · with readLine := rest.line })
      x.run script
      let hasRun := hasRun || !script.isEmpty
      if isOver then return hasRun else runLines x count rest hasRun

/-- Runs a text, and tells whether there was anything to run. -/
def runSource (x : Context) (text : String) : Action Bool := do
  let s := Source.ofText 1 text
  let st ← get
  (runLines x (s.size st.aliases) s false).andThen ({ · with readLine := st.readLine })

/-- Runs a text. -/
def runText (x : Context) (text : String) : Action Unit := do
  let _ ← runSource x text

/-- Runs a text on its own, which succeeds if there is nothing to run. -/
def runWhole (x : Context) (text : String) : Action Unit := do
  if !(← runSource x text) then Action.setStatus 0

/-! ### Signals -/

/-- Runs what is to be done for a signal, or ends the shell. -/
def obeySignal (x : Context) (signal : Nat) : Action Unit := do
  let st ← get
  match st.traps.lookup signal with
  | some script =>
    if !script.isEmpty then
      let old := st.trapStatus?
      Action.set ({ · with trapStatus? := some st.status })
      (strictly (runText x script)).andThen (·.setting ({ · with trapStatus? := old }))
      Action.setStatus st.status
  | none =>
    if Ending.harmlessSignals.contains signal then pure () else throw (.finish (.signal signal))

/-- Does what is to be done for the signals that have arrived, which is the business of the
outermost shell. -/
def obeySignals (x : Context) : Action Unit := do
  let st ← get
  if !st.isInner && !st.arrived.isEmpty then
    modify ({ · with arrived := [] })
    ((List.range 65).filter st.arrived.contains).forM (obeySignal x)

/-! ### Exits -/

/-- Runs what is to be done when the shell exits, and tells how it ends then. -/
def runExit (x : Context) (e : Ending) : Action Ending := do
  let st ← get
  match e, st.traps.lookup 0 with
  | .exit status, some script =>
    Action.set fun s ↦
      { s with
        traps := s.traps.filter (·.1 != 0)
        trapStatus? := some status
        command := "" }
    Action.setStatus status
    let r : Except Jump Unit ← ExceptT.lift (strictly (runText x script)).run
    match r with
    | .error (.finish last) => return last
    | .error .exhaust => throw .exhaust
    | .error .fail => return .exit 2
    | _ => return .exit status
  | _, _ => return e

/-- An action to the end of the shell, and how that ends. -/
def toEnd (x : Context) (a : Action Unit) : Action Ending := do
  let r : Except Jump Unit ← ExceptT.lift a.run
  match r with
  | .error .exhaust => throw .exhaust
  | .error (.finish e) => runExit x e
  | .error .fail => runExit x (.exit 2)
  | _ => runExit x (.exit ((← get).status % 256))

/-! ### Shells of their own -/

/-- An action in a shell of its own, and how that ends. `settle` is done when it has ended. -/
def inner (x : Context) (settle : Action Unit) (a : Action Unit) : Action Ending := do
  let old ← get
  modify fun st ↦
    { st with
      isInner := true
      readLine := 1
      traps := st.traps.filter fun (_, script) ↦ script.isEmpty
      jobs := [] }
  let a : Action Ending := do
    let e ← toEnd x a
    settle
    return e
  let r : Except Jump Ending ← ExceptT.lift a.run
  modify fun st ↦
    { st with
      toSettings := old.toSettings
      line := old.line
      readLine := old.readLine
      jobs := old.jobs
      openings := st.openings.take old.openings.size
      files := { st.files with workingDirectory := old.files.workingDirectory } }
  match r with
  | .ok e => return e
  | .error j => throw j

/-- Takes note of the end of a process, and sets the status that tells of it. -/
def conclude (e : Ending) : Action Unit := do
  if !(← get).isInner then Action.notice 17
  match e with
  | .exit status => Action.setStatus status
  | .signal signal => Action.setStatus (← Action.reportSignal signal)

/-! ### Scripts beside the shell -/

/-- Runs a script beside the shell, unless a signal has ended it, and tells how it ends. It reads
nothing. -/
def runJob (x : Context) (j : Job) : Action Ending := do
  let e ←
    match j.signal? with
    | some signal => pure (.signal signal)
    | none => inner x (pure ()) do
      modify fun st ↦
        { st with
          toSettings := { j.settings with
            isInner := true, traps := j.settings.traps.filter fun (_, script) ↦ script.isEmpty }
          files := { st.files with workingDirectory := j.workingDirectory } }
      modify (·.openStream 0 ⟨.device .null, true, false⟩)
      x.run j.body
  modify fun st ↦ { st with finishedJobs := (j.number, e.status) :: st.finishedJobs }
  return e

/-- Runs the scripts beside the shell that have not been run. -/
def runJobs (x : Context) : Action Unit := do
  let jobs := (← get).jobs
  modify ({ · with jobs := [] })
  jobs.forM fun j ↦ do let _ ← runJob x j

/-- An action in a shell of its own. -/
def apart (x : Context) (a : Action Unit) : Action Unit := do
  conclude (← inner x (runJobs x) a)

/-- An action in a shell of its own, and what it writes. If it takes too many steps, nobody reads
what it would write then. -/
def capturing (x : Context) (a : Action Unit) : Action Bytes := do
  let (index, streams) := (← get).toStreams.addPipe
  modify ({ · with toStreams := streams })
  let a : Action Unit := do
    modify (·.openStream 1 ⟨.pipe index, false, true⟩)
    a
  tryCatch (apart x a) fun
    | .exhaust => conclude (.signal 13)
    | j => throw j
  let (bs, streams) := (← get).toStreams.takePipe
  modify ({ · with toStreams := streams })
  return bs

/-- Runs a script in a shell of its own, for what it writes; line feeds at the end do not count. -/
def outputOf (x : Context) (script : Script) : Action String := do
  if script.isEmpty then return ""
  let status := (← get).status
  let bs ← capturing x (strictly (x.run script))
  modify fun st ↦ { st with status, outputStatus? := some st.status }
  return Text.octets (((bs.filter (· != 0)).reverse.dropWhile (· == 10)).reverse)

/-- Starts a script beside the shell. -/
def startJob (body : Script) : Action Unit :=
  modify fun st ↦
    let number := State.processNumber + 1 + st.jobCount
    { st with
      jobs := st.jobs ++ [⟨number, body, { st.toSettings with tolerates := false },
          st.files.workingDirectory, none⟩]
      jobCount := st.jobCount + 1
      lastJob? := some number
      status := 0 }

end DocumentMath.Shell
