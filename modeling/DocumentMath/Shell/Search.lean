import DocumentMath.Shell.Action

/-!
# Looking up programs by name

A name without a slash stands for the first program of that name in the directories that a variable
lists. A shell remembers where it has found a program.
-/

namespace DocumentMath.Shell

namespace State

/-- The paths that a name behind a directory may stand for. -/
def pathsIn (directories name : String) : List String :=
  (directories.splitOn ":").map fun directory ↦
    if directory.isEmpty then name else directory ++ "/" ++ name

/-- The first of several paths that leads to a program, or why there is none. -/
def firstProgram (files : FileTree) (e : IoError) : List String → Except IoError String
  | [] => .error e
  | path :: paths =>
    match files.find (.ofOctets path) with
    | .ok (_, .program _) => .ok path
    | .ok _ => firstProgram files .permissionDenied paths
    | .error .notFound | .error .notADirectory => firstProgram files e paths
    | .error other => firstProgram files other paths

/-- The path that a name stands for. -/
def search (st : State) (name : String) : Except IoError String :=
  firstProgram st.files .notFound (pathsIn ((st.valueOf? "PATH").getD "") name)

end State

/-- Looks up the path that a name stands for, and remembers it. -/
def locate (name : String) : Action (Except IoError String) := do
  let st ← get
  if name.toList.contains '/' then return .ok name
  else
    match st.known.lookup name with
    | some path => return .ok path
    | none =>
      let r := st.search name
      if let .ok path := r then Action.set fun s ↦ { s with known := s.known ++ [(name, path)] }
      return r

end DocumentMath.Shell
