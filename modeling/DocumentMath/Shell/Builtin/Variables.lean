import DocumentMath.Shell.Builtin.Jumps
import DocumentMath.Shell.Builtin.Source

/-!
# Commands about variables

A script can list variables, pass them on to programs, protect them, keep them to a function, and
take their values away.
-/

namespace DocumentMath.Shell.Builtin

/-- What an argument says about a variable: its name, and the value it gets, if it gets one. -/
def assignmentOf (text : String) : String × Option String :=
  let name := text.toList.takeWhile (· != '=')
  let rest := text.toList.drop name.length
  (String.ofList name, if rest.isEmpty then none else some (String.ofList (rest.drop 1)))

/-- Ends the shell unless a text is the name of a variable. -/
def checkName (x : Context) (name : String) : Action Unit := do
  if !isVariableName name.toList then Action.die x (name ++ ": bad variable name")

/-- The variables with their names, in order. -/
def sortedBindings (s : Settings) : List (String × Variable) :=
  s.bindings.mergeSort fun a b ↦ a.1 ≤ b.1

/-- The line that tells the value of a variable behind a command. -/
def variableLine (command name : String) (value? : Option String) : String :=
  command ++
    match value? with
    | some value => definitionOf name value
    | none => name

/-- Marks variables, or lists those that are marked. -/
def mark (isMarked : Variable → Bool) (marked : Variable → Variable) : Builtin :=
  fun x arguments ↦ do
  let r ← Action.letters x "p" "" arguments
  if r.has 'p' || r.operands.isEmpty then
    let st ← get
    let found := (sortedBindings st.toSettings).filter (isMarked ·.2)
    Action.printLines x 0 (found.map fun (name, v) ↦
      variableLine (st.command ++ " ") name v.value?)
  else
    r.operands.forM fun text ↦ do
      let (name, value?) := assignmentOf text
      checkName x name
      if let some value := value? then Action.assign x name value
      Action.set fun s ↦ s.bind name (marked (s.find name))
    Action.setStatus 0

/-- Lets programs know variables. -/
def «export» : Builtin :=
  mark (·.isExported) ({ · with isExported := true })

/-- Lets no value of variables change. -/
def readonly : Builtin :=
  mark (·.isFixed) ({ · with isFixed := true })

/-- Lets a function have variables of its own. -/
def makeLocal : Builtin := fun x arguments ↦ do
  if (← get).frames.isEmpty then Action.die x "not in a function"
  else
    arguments.forM fun text ↦ do
      let (name, value?) := assignmentOf text
      checkName x name
      Action.keepVariables [name]
      if let some value := value? then Action.assign x name value
    Action.setStatus 0

/-- Takes values, or functions, away from names. -/
def unset : Builtin := fun x arguments ↦ do
  let r ← Action.letters x "fv" "" arguments
  r.operands.forM fun name ↦ do
    if (r.letters.getLast?.any (·.1 == 'f')) then
      Action.set fun s ↦ { s with functions := s.functions.filter (·.1 != name) }
    else
      checkName x name
      if ((← get).find name).isFixed then Action.die x (name ++ ": is read only")
      Action.set (·.bind name .absent)
  Action.setStatus 0

end DocumentMath.Shell.Builtin
