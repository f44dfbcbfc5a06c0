import DocumentMath.Command.Program

/-!
# Streams

Programs that a shell runs read from and write to numbered streams. A stream leads to an opening,
which several streams may share: the next byte is read or written where the last one was, whichever
stream it came through. An opening is one of a file, of a device or of a pipe, or it leads out of
the shell.

`Streams` holds all openings and what has been written out of the shell.
-/

namespace DocumentMath.Shell

open Text (Bytes)

/-! ### Openings -/

/-- What an opening leads to. -/
inductive Channel where
  /-- Bytes that can be read. -/
  | source (rest : Bytes)
  /-- What the shell writes. -/
  | output
  | errors
  | pipe (index : Nat)
  /-- A file, which is opened at a position or, to write to it, always at its end. -/
  | file (place : Place) (position : Nat) (appends : Bool)
  | device (d : Device)
  /-- Nothing, for some reason. -/
  | broken (e : IoError)

/-- What has been opened. -/
structure Opening where
  channel : Channel
  canRead : Bool
  canWrite : Bool

/-- Openings, and what has been written, the last piece first. -/
structure Streams where
  openings : Array Opening
  written : List Writing
  pipes : Array (List Bytes)
  files : FileTree

/-- All that has been written in pieces. -/
def joinPieces (pieces : List Bytes) : Bytes :=
  pieces.reverse.flatten

namespace Streams

/-! ### Reading -/

/-- What can be read from an opening. -/
def content (s : Streams) (index : Nat) : Except IoError Bytes :=
  match s.openings[index]? with
  | none => .error .badDescriptor
  | some o =>
    if !o.canRead then .error .badDescriptor
    else
      match o.channel with
      | .source rest => .ok rest
      | .file place position _ =>
        match s.files.get? place with
        | some e => e.content.map (List.drop position)
        | none => .ok []
      | .device d => d.content
      | .broken e => .error e
      | .output | .errors | .pipe _ => .ok []

/-- The streams once all but `rest` has been read of what was left of an opening. -/
def leave (rest : Bytes) (index : Nat) (s : Streams) : Streams :=
  match s.openings[index]? with
  | none => s
  | some o =>
    let channel : Channel :=
      match o.channel with
      | .source _ => .source rest
      | .file place position appends =>
        let left := ((s.content index).toOption.map List.length).getD 0
        .file place (position + (left - rest.length)) appends
      | channel => channel
    { s with openings := s.openings.setIfInBounds index { o with channel } }

/-! ### Writing -/

/-- A content in which bytes stand at a position; zeros fill what would be between. -/
def overwrite (position : Nat) (bs content : Bytes) : Bytes :=
  content.take position ++ List.replicate (position - content.length) 0 ++ bs ++
    content.drop (position + bs.length)

/-- Writes bytes to a file, at a position or at its end; the position behind them comes along. -/
def writeFile (place : Place) (position : Nat) (appends : Bool) (bs : Bytes) (files : FileTree) :
    Nat × FileTree :=
  let old := ((files.get? place).bind fun e ↦ e.content.toOption).getD []
  let position := if appends then old.length else position
  (position + bs.length, files.set place (.file (overwrite position bs old)))

/-- Writes bytes to an opening, or says why that is impossible. -/
def write (bs : Bytes) (index : Nat) (s : Streams) : Except IoError Streams :=
  match s.openings[index]? with
  | none => .error .badDescriptor
  | some o =>
    if !o.canWrite then .error .badDescriptor
    else
      match o.channel with
      | .output => .ok { s with written := .output bs :: s.written }
      | .errors => .ok { s with written := .errors bs :: s.written }
      | .pipe i => .ok { s with pipes := s.pipes.modify i (bs :: ·) }
      | .file place position appends =>
        let (position, files) := writeFile place position appends bs s.files
        let channel : Channel := .file place position appends
        .ok { s with files, openings := s.openings.setIfInBounds index { o with channel } }
      | .device d => (d.take bs).map fun _ ↦ s
      | .source _ => .ok s
      | .broken e => .error e

/-! ### Opening -/

/-- The streams with one more opening, and its index. -/
def add (o : Opening) (s : Streams) : Nat × Streams :=
  (s.openings.size, { s with openings := s.openings.push o })

/-- The streams with one more pipe, and its index. -/
def addPipe (s : Streams) : Nat × Streams :=
  (s.pipes.size, { s with pipes := s.pipes.push [] })

/-- What has been written into the last pipe, which is not needed any more. -/
def takePipe (s : Streams) : Bytes × Streams :=
  (joinPieces (s.pipes.back?.getD []), { s with pipes := s.pipes.pop })

/-- The place where a file is opened to write to it, and the files with it there. What it holds may
be kept, or have to be kept. -/
def createFile (keeps mustKeep : Bool) (path : Path) (files : FileTree) :
    Except IoError (Entry × Place × FileTree) := do
  match ← files.findFile path with
  | (place, some (.device d)) => return (.device d, place, files)
  | (place, some e) =>
    if keeps then return (e, place, files)
    else if mustKeep then throw .alreadyExists
    else return (.file [], place, files.set place (.file []))
  | (place, none) => return (.file [], place, files.set place (.file []))

end Streams

end DocumentMath.Shell
