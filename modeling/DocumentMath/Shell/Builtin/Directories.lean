import DocumentMath.Shell.Builtin.Jumps

/-!
# Commands about the process

A script can change the working directory, and ask for it, for the permissions of new files, for
limits, and for the time it has taken, which is none.
-/

namespace DocumentMath.Shell.Builtin

/-! ### The working directory -/

/-- The place that a step leads to by its name alone. -/
def stepFrom (p : Place) : Path.Component → Place
  | .root => []
  | .current => p
  | .parent => p.dropLast
  | .name text => p ++ [String.ofList text]

/-- The directory that a path leads to, by its names alone unless `physical`. -/
def directoryAt? (physical : Bool) (path : Path) (files : FileTree) : Option Place :=
  if physical then
    match files.find path with
    | .ok (place, e) => if e.isDirectory then some place else none
    | .error _ => none
  else
    let place := (FileTree.stepsOf path).foldl stepFrom files.workingDirectory
    if (files.get? place).any (·.isDirectory) then some place else none

/-- Whether a directory is given so that nobody has to search for it. -/
def isDirect (name : String) : Bool :=
  name.isEmpty || name.startsWith "/" || [".", ".."].contains ((name.splitOn "/").headD "")

/-- The paths that the name of a directory may stand for, and whether it is told which one it is. -/
def directoryPaths (st : State) (name : String) : List (String × Bool) :=
  let searched :=
    if isDirect name then []
    else
      ((st.valueOf? "CDPATH").getD "").splitOn ":" |>.map fun directory ↦
        (if directory.isEmpty then name else directory ++ "/" ++ name, !directory.isEmpty)
  searched ++ [(name, false)]

/-- Gives a value to a variable that programs know. -/
def assignExported (x : Context) (name value : String) : Action Unit := do
  Action.assign x name value
  Action.set fun s ↦ s.bind name { s.find name with isExported := true }

/-- Makes another directory the working directory: the one that is given, the home, or for a hyphen
the one before. -/
def changeDirectory : Builtin := fun x arguments ↦ do
  let r ← Action.letters x "LP" "" arguments
  let st ← get
  let physical := r.letters.getLast?.any (·.1 == 'P')
  let goesBack := r.operands.head? == some "-"
  let name :=
    match r.operands with
    | [] => (st.valueOf? "HOME").getD ""
    | name :: _ => if goesBack then (st.valueOf? "OLDPWD").getD "" else name
  let found? := (directoryPaths st name).findSome? fun (path, isTold) ↦
    (directoryAt? physical (.ofOctets path) st.files).map (·, isTold)
  match found? with
  | none => Action.die x ("can't cd to " ++ name)
  | some (place, isTold) => do
    modify ({ · with files := { st.files with workingDirectory := place } })
    assignExported x "OLDPWD" (State.pathOf st.files.workingDirectory)
    assignExported x "PWD" (State.pathOf place)
    if isTold || goesBack then Action.printLines x 0 [State.pathOf place]
    else Action.setStatus 0

/-- Writes the path of the working directory. -/
def showDirectory : Builtin := fun x arguments ↦ do
  let _ ← Action.letters x "LP" "" arguments
  Action.printLines x 0 [State.pathOf (← get).files.workingDirectory]

/-! ### Permissions -/

/-- The digits of a number in base eight. -/
def octal (n : Nat) : String :=
  String.ofList ([512, 64, 8, 1].map fun place ↦ (n / place % 8).digitChar)

/-- The permissions that are left of all, for the owner, the group and others. -/
def permissionsLeft (mask : Nat) : String :=
  let left (n : Nat) : String := String.ofList
    (([(4, 'r'), (2, 'w'), (1, 'x')].filter fun (bit, _) ↦ n &&& bit == 0).map (·.2))
  ",".intercalate
    ["u=" ++ left (mask / 64), "g=" ++ left (mask / 8), "o=" ++ left mask]

/-- The permissions that letters name, where `left` are all that are left. -/
def namedPermissions (left : Nat) (cs : List Char) : Nat :=
  cs.foldl (fun n c ↦ n |||
    match c with
    | 'r' => 4
    | 'w' => 2
    | 'x' => 1
    | 'u' => left / 64 % 8
    | 'g' => left / 8 % 8
    | 'o' => left % 8
    | 'X' => if left &&& 0o111 = 0 then 0 else 1
    | _ => 0) 0

/-- Changes permissions as a text says: whose they are, a sign, and which they are; at most so many
times. `left` are the permissions at the start, and `owners` those whose they were before. There is
none if the text says something else. -/
def changePermissions (left : Nat) : (times owners now : Nat) → List Char → Option Nat
  | 0, _, now, cs => if cs.isEmpty then some now else none
  | times + 1, owners, now, cs =>
    let whose := cs.takeWhile ['a', 'u', 'g', 'o'].contains
    let owners := whose.foldl (fun n c ↦ n |||
      (([('a', 0o111), ('u', 0o100), ('g', 0o10)] : List (Char × Nat)).lookup c).getD 1) owners
    let owners := if owners = 0 then 0o111 else owners
    match cs.drop whose.length with
    | sign :: rest =>
      let which := rest.takeWhile "rwxugoXs".toList.contains
      let named := namedPermissions left which * owners
      let now? : Option Nat :=
        match sign with
        | '-' => some (now &&& (0o777 ^^^ named))
        | '=' => some (named ||| (now &&& (0o777 ^^^ (7 * owners))))
        | '+' => some (now ||| named)
        | _ => none
      match now?, rest.drop which.length with
      | none, _ => none
      | some now, [] => some now
      | some now, ',' :: cs =>
        if cs.isEmpty then some now else changePermissions left times 0 now cs
      | some now, cs => changePermissions left times owners now cs
    | [] => some now

/-- The permissions that new files do not get, as a text writes them in base eight or as changes. -/
def maskOf (mask : Nat) (text : String) : Except String Nat :=
  if text.toList.head?.any Char.isDigit then
    if text.toList.all fun c ↦ '0' ≤ c && c ≤ '7' then
      .ok (text.toList.foldl (fun n c ↦ 8 * n + (c.toNat - 48)) 0 % 512)
    else .error ("Illegal number: " ++ text)
  else
    match changePermissions (0o777 ^^^ mask) text.length 0 (0o777 ^^^ mask) text.toList with
    | some left => .ok (0o777 ^^^ left)
    | none => .error ("Illegal mode: " ++ text)

/-- Sets the permissions that new files do not get, or writes them. -/
def umask : Builtin := fun x arguments ↦ do
  let r ← Action.letters x "S" "" arguments
  let mask := (← get).mask
  match r.operands with
  | [] => Action.printLines x 0 [if r.has 'S' then permissionsLeft mask else octal mask]
  | text :: _ =>
    match maskOf mask text with
    | .ok mask => do
      Action.set ({ · with mask })
      Action.setStatus 0
    | .error message => Action.die x message

/-! ### Limits and times -/

/-- Writes that nothing is limited. -/
def ulimit : Builtin := fun x _ ↦
  Action.printLines x 0 ["unlimited"]

/-- Writes that no time has passed. -/
def times : Builtin := fun x _ ↦
  Action.printLines x 0 (List.replicate 2 "0m0.000000s 0m0.000000s")

end DocumentMath.Shell.Builtin
