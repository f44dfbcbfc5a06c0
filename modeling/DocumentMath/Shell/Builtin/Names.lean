import DocumentMath.Shell.Builtin.Jumps
import DocumentMath.Shell.Builtin.Source
import DocumentMath.Shell.Search

/-!
# Commands about names

A script can let names stand for other texts, and ask what a name stands for: a reserved word, such
a text, a command of the shell, a function, or a program.
-/

namespace DocumentMath.Shell.Builtin

/-- The commands of the shell that functions can replace. -/
def regularCommands : List String :=
  ["[", "alias", "bg", "cd", "chdir", "command", "echo", "false", "fg", "getopts", "hash", "jobs",
    "kill", "printf", "pwd", "read", "test", "true", "type", "ulimit", "umask", "unalias", "wait"]

/-- The place in a table of so many lists where a name is kept. -/
def tablePlace (size : Nat) (name : String) : Nat :=
  let first := (name.toList.head?.map Char.toNat).getD 0
  (16 * first + (name.toList.map Char.toNat).foldl (· + ·) 0) % size

/-- What is kept for names, in the order in which a table of so many lists is listed. -/
def inTableOrder (size : Nat) (entries : List (String × String)) : List (String × String) :=
  entries.mergeSort fun a b ↦ tablePlace size a.1 ≤ tablePlace size b.1

/-! ### Other texts -/

/-- Lets names stand for texts, or writes for which. -/
def setAliases : Builtin := fun x arguments ↦ do
  let st ← get
  if arguments.isEmpty then
    Action.printLines x 0 ((inTableOrder 39 st.aliases).map fun (name, text) ↦
      definitionOf name text)
  else
    let results ← arguments.mapM fun argument ↦ do
      let s := (← get).toSettings
      match (argument.toList.drop 1).findIdx? (· == '=') with
      | some i =>
        let name := String.ofList (argument.toList.take (i + 1))
        let text := String.ofList (argument.toList.drop (i + 2))
        let isOld := (s.aliases.lookup name).isSome
        Action.set fun s ↦
          { s with
            aliases :=
              if isOld then s.aliases.map fun (n, t) ↦ (n, if n = name then text else t)
              else s.aliases ++ [(name, text)] }
        return some []
      | none =>
        match s.aliases.lookup argument with
        | some text => return some [definitionOf argument text]
        | none =>
          Action.writeLine 2 ("alias: " ++ argument ++ " not found")
          return none
    Action.printLines x (if results.contains none then 1 else 0)
      (results.flatMap fun r ↦ r.getD [])

/-- Lets names stand for no other texts. -/
def unalias : Builtin := fun x arguments ↦ do
  let r ← Action.letters x "a" "" arguments
  if r.has 'a' then
    Action.set ({ · with aliases := [] })
    Action.setStatus 0
  else
    let missing ← r.operands.filterM fun name ↦ do
      let isMissing := ((← get).aliases.lookup name).isNone
      if isMissing then Action.writeLine 2 ("unalias: " ++ name ++ " not found")
      Action.set fun s ↦ { s with aliases := s.aliases.filter (·.1 != name) }
      return isMissing
    Action.setStatus (if missing.isEmpty then 0 else 1)

/-! ### Meanings -/

/-- What a name stands for, in full words or as a script would write it, if that is anything. -/
def describe (inFull : Bool) (name : String) : Action (Option String) := do
  let st ← get
  let kind (text : String) : Option String := some (if inFull then name ++ " is " ++ text else name)
  let program (text path : String) : Option String :=
    some (if inFull then name ++ " is " ++ text ++ path else path)
  if reservedWords.contains name then return kind "a shell keyword"
  if let some text := st.aliases.lookup name then
    return some
      (if inFull then name ++ " is an alias for " ++ text else "alias " ++ definitionOf name text)
  if Reading.specialCommands.contains name then return kind "a special shell builtin"
  if (st.functions.lookup name).isSome then return kind "a shell function"
  if regularCommands.contains name then return kind "a shell builtin"
  match ← locate name with
  | .ok path =>
    if (st.known.lookup name).isSome then return program "a tracked alias for " path
    else if (st.files.find (.ofOctets path)).toOption.isSome then return program "" path
    else return none
  | .error _ => return none

/-- Writes what names stand for. -/
def type : Builtin := fun x names ↦ do
  let found ← names.mapM (describe true)
  Action.printLines x (if found.contains none then 127 else 0)
    ((names.zip found).map fun (name, text?) ↦ text?.getD (name ++ ": not found"))

/-- Writes what a name stands for, in full words or as a script would write it. -/
def verify (inFull : Bool) (name : String) : Context → Action Unit := fun x ↦ do
  if inFull then type x [name]
  else
    match ← describe false name with
    | some text => Action.printLines x 0 [text]
    | none => Action.setStatus 127

/-- Looks up programs, or writes the paths of those that have been. -/
def hash : Builtin := fun x arguments ↦ do
  let r ← Action.letters x "r" "" arguments
  if r.has 'r' then
    Action.set ({ · with known := [] })
    Action.setStatus 0
  else if r.operands.isEmpty then
    Action.printLines x 0 ((inTableOrder 31 (← get).known).map (·.2))
  else
    let missing ← r.operands.filterM fun name ↦ do
      let isMissing := (← describe false name).isNone
      if isMissing then Action.complain x (name ++ ": not found")
      return isMissing
    Action.setStatus (if missing.isEmpty then 0 else 1)

end DocumentMath.Shell.Builtin
