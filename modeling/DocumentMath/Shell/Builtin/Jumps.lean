import DocumentMath.Shell.Action

/-!
# Commands that jump

A script can leave the shell, a function, or loops.
-/

namespace DocumentMath.Shell

/-- A command of the shell, given the arguments behind its name. -/
abbrev Builtin := Context → List String → Action Unit

namespace Builtin

/-- Ends the shell, with the status of the last command unless another is given. In what is done for
a signal that is the one of the last command in front of it. -/
def exit : Builtin := fun x arguments ↦ do
  let st ← get
  let status ←
    match arguments with
    | [] => pure (st.trapStatus?.getD st.status)
    | text :: _ => Action.number x text
  throw (.finish (.exit (status % 256)))

/-- Ends a function, with the status of the last command unless another is given. -/
def leave : Builtin := fun x arguments ↦ do
  if let text :: _ := arguments then Action.setStatus (← Action.number x text)
  throw .leaveFunction

/-- Jumps out of loops, one unless another number is given, and not more than there are. -/
def jump (jumpOver : Nat → Jump) : Builtin := fun x arguments ↦ do
  let text := arguments.head?.getD "1"
  match ← Action.number x text, (← get).loops with
  | 0, _ => Action.die x ("Illegal number: " ++ text)
  | _, 0 => Action.setStatus 0
  | n + 1, loops + 1 => do
    Action.setStatus 0
    throw (jumpOver (min n loops + 1))

end Builtin

end DocumentMath.Shell
