import DocumentMath.CommandLine.Run

/-!
# The program

The outer layer of the command line. It fetches what the arguments lead to, calls the program,
prints its texts and writes the files it has left. What is fetched are the bytes that can be read,
if an argument is `-`, and every file and directory on the way to an argument that the system does
not have anyway.
-/

namespace DocumentMath.CommandLine

/-- The names in a path. -/
def placeOf (text : String) : Place :=
  (text.splitOn "/").filter (!·.isEmpty)

/-- A place as a path. -/
def placeText (p : Place) : String :=
  "/" ++ "/".intercalate p

/-- What stands at a place. -/
def fetchEntry (p : Place) : IO (Option Entry) := do
  try
    return some (.file (← IO.FS.readBinFile (placeText p)).data.toList)
  catch
    | .noFileOrDirectory .. => return none
    | _ => return some .directory

/-- The tree with what stands at a place and on the way to it, unless the tree knows that. -/
def fetch (t : FileTree) (p : Place) : IO FileTree :=
  (List.range p.length).foldlM (fun t i ↦ do
    let q := p.take (i + 1)
    if (t.get? q).isSome then return t
    else
      match ← fetchEntry q with
      | some e => return t.set q e
      | none => return t) t

/-- Writes what differs from what was fetched. -/
def store (before after : FileTree) : IO Unit :=
  after.entries.reverse.forM fun (p, e) ↦ do
    if before.get? p ≠ some e then
      match e with
      | .directory => IO.FS.createDirAll (placeText p)
      | .file content => IO.FS.writeBinFile (placeText p) ⟨content.toArray⟩
      | _ => return ()

/-- What can be read, if an argument asks for it. -/
def fetchInput (arguments : List String) : IO Text.Bytes := do
  if arguments.contains "-" then return (← (← IO.getStdin).readToEnd).toUTF8.data.toList
  else return []

/-- Runs the program with the arguments it is called with. -/
def program (arguments : List String) : IO UInt32 := do
  let directory := (← IO.currentDir).toString
  let workingDirectory := placeOf directory
  let files ← arguments.foldlM (fun t text ↦
    fetch t (if text.startsWith "/" then placeOf text else workingDirectory ++ placeOf text))
    (Command.withSystem (.withDirectory workingDirectory))
  let result := run {
    arguments
    engineSetting? := ← IO.getEnv Invocation.engineVariable
    input := ← fetchInput arguments
    files
    workingDirectory := ⟨directory⟩ }
  (← IO.getStdout).putStr result.output
  (← IO.getStderr).putStr result.errors
  store files result.files
  return UInt32.ofNat result.status

end DocumentMath.CommandLine

/-- The entry point. -/
def main (arguments : List String) : IO UInt32 :=
  DocumentMath.CommandLine.program arguments
