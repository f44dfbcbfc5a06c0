import DocumentMath.Shell.Expansion

/-!
# Redirecting streams

A redirection lets a stream lead to a file or where another stream leads, or lets what is read come
from the script. Redirections are carried out from left to right and hold for one statement.
-/

namespace DocumentMath.Shell

open Text (Bytes)

/-! ### Messages -/

/-- What a shell calls the cause when a file is missing. -/
def ioReason (whenMissing : String) : IoError → String
  | .notFound | .notADirectory => whenMissing
  | e => e.reason

/-- Why a file cannot be opened. -/
def openFailure (name : String) (e : IoError) : String :=
  "cannot open " ++ name ++ ": " ++ ioReason "No such file" e

/-- Why a file cannot be created. -/
def createFailure (name : String) (e : IoError) : String :=
  "cannot create " ++ name ++ ": " ++ ioReason "Directory nonexistent" e

/-! ### Opening -/

/-- Lets a stream lead to what is to be read from a file. -/
def openToRead (stream : Nat) (name : String) (st : State) : Except IoError State := do
  match ← st.files.find (.ofOctets name) with
  | (_, .device (.stream n)) =>
    match st.opening? n with
    | some index => return st.setStream stream (some index)
    | none => throw .notFound
  | (_, .device .terminal) => throw .noDevice
  | (_, .device d) => return st.openStream stream ⟨.device d, true, false⟩
  | (place, e) =>
    let channel : Channel := if e.isDirectory then .broken .isADirectory else .file place 0 false
    return st.openStream stream ⟨channel, true, false⟩

/-- Lets a stream lead to where something is to be written to a file. -/
def openToWrite (stream : Nat) (kind : RedirectKind) (name : String) (st : State) :
    Except IoError State := do
  let appends := kind == RedirectKind.append
  let reads := kind == RedirectKind.readWrite
  let mustKeep := kind == RedirectKind.write && st.hasOption 'C'
  match ← Streams.createFile (appends || reads) mustKeep (.ofOctets name) st.files with
  | (.device (.stream n), _, _) =>
    match st.opening? n with
    | some index =>
      if (st.openings[index]?).any (·.canWrite) then return st.setStream stream (some index)
      else return st.openStream stream ⟨.device .null, true, true⟩
    | none => throw .notFound
  | (.device .terminal, _, _) => throw .noDevice
  | (.device d, _, _) => return st.openStream stream ⟨.device d, reads, true⟩
  | (_, place, files) =>
    return { st with files }.openStream stream
      ⟨.file place 0 appends, reads, true⟩

/-! ### Redirections -/

/-- A redirection carried out, or a message that says why that is impossible. -/
def redirected (r : Redirection) (target : String) (st : State) : Except String State :=
  match r.kind, target.toList with
  | .text, _ => .ok (st.openStream r.stream ⟨.source (Text.ofOctets target), true, false⟩)
  | .read, _ => (openToRead r.stream target st).mapError (openFailure target)
  | .copy, ['-'] => .ok (st.setStream r.stream none)
  | .copy, cs =>
    match readNumber? (String.ofList cs) with
    | some n =>
      match st.opening? n with
      | some index => .ok (st.setStream r.stream (some index))
      | none => .error (target ++ ": " ++ IoError.badDescriptor.reason)
    | none => .error ("Bad fd number: " ++ target)
  | kind, _ => (openToWrite r.stream kind target st).mapError (createFailure target)

/-- Whether the target of a copy can be the number of a stream, or a hyphen. -/
def isStreamNumber (target : String) : Bool :=
  match target.toList with
  | [c] => c.isDigit || c == '-'
  | _ => false

/-- The target of a redirection, unless it is a text in the script, which has to wait for its turn.
-/
def targetOf (x : Context) (r : Redirection) : Action String := do
  if r.kind = .text then return ""
  let target ← Word.text x r.target
  if r.kind = .copy ∧ !isStreamNumber target then
    modify fun st ↦ { st with line := st.readLine }
    Action.die x "Syntax error: Bad fd number"
  return target

/-- What a text in a script becomes, unless there is a mistake in it. -/
def textIn? (x : Context) (w : Word) : Action (Option String) :=
  tryCatch (do return some (← w.text x)) fun
    | .fail => return none
    | j => throw j

/-- Carries out redirections to targets, from left to right, and tells whether that was
possible. -/
def redirectTo (x : Context) : List (Redirection × String) → Action Bool
  | [] => return true
  | (r, target) :: rs => do
    let some target ← if r.kind = .text then textIn? x r.target else pure (some target)
      | return false
    match redirected r target (← get) with
    | .ok st =>
      set st
      redirectTo x rs
    | .error message =>
      Action.complain x message
      return false

/-- Carries out redirections, and tells whether that was possible. -/
def redirectAll (x : Context) (rs : List Redirection) : Action Bool := do
  redirectTo x (← rs.mapM fun r ↦ do return (r, ← targetOf x r))

/-- An action with redirections. If one of them is impossible, nothing is done, and the shell may
end. -/
def redirecting (x : Context) (rs : List Redirection) (endsShell : Bool) (a : Action Unit) :
    Action Unit := do
  if rs.isEmpty then a
  else
    let streams := (← get).streams
    let restore (st : State) : State := st.setting ({ · with streams })
    Action.andThen (do
      if ← redirectAll x rs then a
      else
        Action.setStatus 2
        if endsShell then throw .fail) restore

end DocumentMath.Shell
