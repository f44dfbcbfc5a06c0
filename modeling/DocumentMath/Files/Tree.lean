import DocumentMath.Error
import DocumentMath.Path.Basic

/-!
# Trees of files

A tree of files holds directories and files, each at a *place*: the names on the way to it from the
root. A path is looked up step by step, from the root or from a working directory. Every name on the
way has to lead to a directory, `..` leads one level up wherever it stands, and even a `.` at the
end asks for a directory; this is where a tree of files differs from the normal form of a path.

The operations are those a pass needs: reading a file, writing one, and creating a directory
together with the directories it is in. Each fails with the error an operating system would report
first. A system has more to it than files: programs, devices, and directories of its own.
-/

namespace DocumentMath

open Text (Bytes)

/-- The names on the way from the root. -/
abbrev Place := List String

/-- Something that can be opened like a file. -/
inductive Device where
  /-- It holds nothing and takes everything. -/
  | null
  /-- It holds zeros and takes everything. -/
  | zeros
  /-- It holds zeros and takes nothing. -/
  | full
  /-- It cannot be opened. -/
  | terminal
  /-- The stream with a number of the program that opens it. Without a program there is none. -/
  | stream (number : Nat)
  deriving DecidableEq, Repr

namespace Device

/-- How many zeros there are where they have no end. -/
def zeroCount : Nat := 65536

/-- What it holds. -/
def content : Device → Except IoError Bytes
  | null => .ok []
  | zeros | full => .ok (List.replicate zeroCount 0)
  | terminal => .error .noDevice
  | stream _ => .error .notFound

/-- Whether it takes bytes. -/
def take (bs : Bytes) : Device → Except IoError Unit
  | null | zeros => .ok ()
  | full => if bs.isEmpty then .ok () else .error .noSpace
  | terminal => .error .noDevice
  | stream _ => .error .notFound

end Device

/-- What stands at a place. -/
inductive Entry where
  | directory
  /-- A directory of the system in which nothing can be created: not a directory, for the first
  reason, and not a file, for the second. -/
  | sealed (forDirectory forFile : IoError)
  | file (content : Bytes)
  /-- A program of the system. -/
  | program (name : String)
  | device (d : Device)
  deriving DecidableEq, Repr

namespace Entry

/-- Whether it is a directory. -/
def isDirectory : Entry → Bool
  | directory | sealed _ _ => true
  | _ => false

/-- The start of every program, which is no text. -/
def programMark : Bytes := [0x7f, 0x45, 0x4c, 0x46, 0xff]

/-- What it holds. Of programs only the start counts. -/
def content : Entry → Except IoError Bytes
  | directory | sealed _ _ => .error .isADirectory
  | file content => .ok content
  | program _ => .ok programMark
  | device d => d.content

end Entry

/-- Files and directories, and the directory in which relative paths start. The root is always there
and has no entry. -/
structure FileTree where
  entries : List (Place × Entry)
  workingDirectory : Place
  deriving Repr

namespace FileTree

/-- What stands at a place. -/
def get? (t : FileTree) (p : Place) : Option Entry :=
  if p = [] then some .directory else (t.entries.find? (·.1 == p)).map (·.2)

/-- The tree with an entry at a place, instead of what stood there. -/
def set (t : FileTree) (p : Place) (e : Entry) : FileTree :=
  { t with entries := (p, e) :: t.entries.filter (·.1 != p) }

/-- A tree in which the working directory and the directories it is in are empty. -/
def withDirectory (workingDirectory : Place) : FileTree where
  entries := (List.range workingDirectory.length).map fun i ↦
    (workingDirectory.take (i + 1), .directory)
  workingDirectory

/-! ### Looking up -/

/-- The longest name a directory can hold, in bytes. -/
def maxNameLength : Nat := 255

/-- The length that no path reaches, in bytes. -/
def maxPathLength : Nat := 4096

/-- The place of a name in a directory. -/
def enter (p : Place) (name : String) : Except IoError Place :=
  if maxNameLength < name.utf8ByteSize then .error .nameTooLong else .ok (p ++ [name])

/-- The component that a segment of a path is. Here every `.` counts: it leads nowhere else, but
what stands in front of it has to be a directory. -/
def segmentComponent? (segment : List Char) : Option Path.Component :=
  if segment = [] then none
  else if segment = ['.'] then some .current
  else if segment = ['.', '.'] then some .parent
  else some (.name segment)

/-- The steps that a path takes one after the other. -/
def stepsOf (path : Path) : List Path.Component :=
  (if path.isAbsolute then [.root] else []) ++
    (Path.segments path.text.toList).filterMap segmentComponent?

/-- The directory that a step leads to from a directory. -/
def walkStep (t : FileTree) (p : Place) : Path.Component → Except IoError Place
  | .root => .ok []
  | .current => .ok p
  | .parent => .ok p.dropLast
  | .name text => do
    let q ← enter p (String.ofList text)
    match t.get? q with
    | some e => if e.isDirectory then .ok q else .error .notADirectory
    | none => .error .notFound

/-- The directory that steps lead to. -/
def walk (t : FileTree) (steps : List Path.Component) : Except IoError Place :=
  steps.foldlM t.walkStep t.workingDirectory

/-- Refuses texts that name no file: empty ones, ones with a null character and ones that are too
long. -/
def checkText (path : Path) : Except IoError Unit :=
  if path.text.toList.contains '\x00' then .error .nulInName
  else if path.isEmpty then .error .notFound
  else if maxPathLength ≤ path.text.utf8ByteSize then .error .nameTooLong
  else .ok ()

/-- What the last step of a path asks for. -/
inductive Destination where
  /-- A name in a directory, where something may stand or not. -/
  | named (directory : Place) (name : String)
  /-- A directory that the path has come to without naming it last. -/
  | directory (place : Place)
  deriving DecidableEq, Repr

/-- The destination of a path, when all steps before the last one lead to directories. -/
def destination (t : FileTree) (path : Path) : Except IoError Destination := do
  checkText path
  match (stepsOf path).getLast? with
  | some (.name text) =>
    return .named (← t.walk (stepsOf path).dropLast) (String.ofList text)
  | _ => return .directory (← t.walk (stepsOf path))

/-- Whether a path ends with a slash. -/
def hasTrailingSlash (path : Path) : Bool :=
  path.text.toList.getLast? == some '/'

/-- The place a path leads to, and what stands there. -/
def find (t : FileTree) (path : Path) : Except IoError (Place × Entry) := do
  match ← t.destination path with
  | .directory place => .ok (place, .directory)
  | .named directory name =>
    let place ← enter directory name
    match t.get? place with
    | none => .error .notFound
    | some e =>
      if hasTrailingSlash path && !e.isDirectory then .error .notADirectory else .ok (place, e)

/-- What a path leads to. -/
def lookup (t : FileTree) (path : Path) : Except IoError Entry :=
  (t.find path).map (·.2)

/-- Whether a path leads to a directory. -/
def isDirectory (t : FileTree) (path : Path) : Bool :=
  (t.lookup path).toOption.any Entry.isDirectory

/-- The device that a path leads to. -/
def device? (t : FileTree) (path : Path) : Option Device :=
  match t.lookup path with
  | .ok (.device d) => some d
  | _ => none

/-- The names in a directory, in order. -/
def names (t : FileTree) (directory : Place) : List String :=
  let found := t.entries.filterMap fun (place, _) ↦
    if place.dropLast == directory then place.getLast? else none
  (found.mergeSort (· ≤ ·)).eraseReps

/-! ### Reading and writing -/

/-- The content of a file. -/
def read (t : FileTree) (path : Path) : Except IoError Bytes := do
  (← t.lookup path).content

/-- The text of a file. -/
def readText (t : FileTree) (path : Path) : Except IoError String := do
  match Text.decodeStrict? (← t.read path) with
  | some text => .ok text
  | none => .error .invalidUtf8

/-- Whether something that is not there can be created in a directory. -/
def checkNew (t : FileTree) (directory : Place) (asDirectory : Bool) : Except IoError Unit :=
  match t.get? directory with
  | some (.sealed forDirectory forFile) => .error (if asDirectory then forDirectory else forFile)
  | _ => .ok ()

/-- The place of the file that would be written at a path, and what stands there. A path with a
slash at its end can only be that of a directory. -/
def findFile (t : FileTree) (path : Path) : Except IoError (Place × Option Entry) := do
  match ← t.destination path with
  | .directory _ => .error .isADirectory
  | .named directory name =>
    if hasTrailingSlash path then .error .isADirectory
    else
      let place ← enter directory name
      match t.get? place with
      | none =>
        t.checkNew directory false
        .ok (place, none)
      | some e => if e.isDirectory then .error .isADirectory else .ok (place, some e)

/-- The tree with a file at a path, in the place of one that is there. A device takes what would be
the content. -/
def write (t : FileTree) (path : Path) (content : Bytes) : Except IoError FileTree := do
  match ← t.findFile path with
  | (_, some (.device d)) =>
    d.take content
    .ok t
  | (place, _) => .ok (t.set place (.file content))

/-! ### Creating directories -/

/-- The tree with a directory at a path where nothing is yet. -/
def createDirectory (t : FileTree) (path : Path) : Except IoError FileTree := do
  match ← t.destination path with
  | .directory _ => .error .alreadyExists
  | .named directory name =>
    let place ← enter directory name
    match t.get? place with
    | none =>
      t.checkNew directory true
      .ok (t.set place .directory)
    | some _ => .error .alreadyExists

/-- Creates a directory at a path; one that is there is as good. -/
def ensureDirectory (t : FileTree) (path : Path) : Except IoError FileTree :=
  match t.createDirectory path with
  | .ok t => .ok t
  | .error e => if t.isDirectory path then .ok t else .error e

/-- Creates the directory at a path whose components, last to first, are given, and before it the
directories it is in, as far as they are missing. What was created before a failure stays. -/
def createAllFrom (t : FileTree) (path : Path) : (components : List Path.Component) →
    Except IoError Unit × FileTree
  | _ :: c :: above =>
    match t.ensureDirectory path with
    | .ok t => (.ok (), t)
    | .error .notFound =>
      match t.createAllFrom (.ofComponents (c :: above).reverse) (c :: above) with
      | (.error e, t) => (.error e, t)
      | (.ok (), t) =>
        match t.ensureDirectory path with
        | .ok t => (.ok (), t)
        | .error e => (.error e, t)
    | .error e => (.error e, t)
  | _ =>
    match t.ensureDirectory path with
    | .ok t => (.ok (), t)
    | .error e => (.error e, t)

/-- Creates the directory at a path and the directories it is in. -/
def createAll (t : FileTree) (path : Path) : Except IoError Unit × FileTree :=
  if path.isEmpty then (.ok (), t) else t.createAllFrom path path.components.reverse

end FileTree

end DocumentMath
