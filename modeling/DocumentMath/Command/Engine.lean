import DocumentMath.Command.Lookup
import DocumentMath.Decimal.Shortest
import DocumentMath.Render.Workspace

/-!
# Programs as engines

An engine may be a program: it reads the delimited LaTeX and writes the artifact. Its arguments may
hold placeholders for the format and the resolution. What it writes to its second stream is part of
the message when it fails, and a program that writes no artifact fails too.
-/

namespace DocumentMath

open Text (Bytes)

/-- A program with its arguments. -/
structure Command where
  program : String
  arguments : List String
  deriving DecidableEq, Repr

namespace Command

/-- What stands for the format in an argument. -/
def formatPlaceholder : String := "\x7bformat\x7d"

/-- What stands for the resolution in an argument. -/
def resolutionPlaceholder : String := "\x7bppi\x7d"

/-- An argument with the placeholders filled in: first the format, then the resolution. -/
def fillIn (request : Request) (argument : String) : String :=
  Text.replaced resolutionPlaceholder (floatText request.resolution)
    (Text.replaced formatPlaceholder request.format.name argument)

/-- The number of bytes that a program may leave unread before those who write to it notice. -/
def pipeCapacity : Nat := 65536

/-- A text that cannot be handed to a program. -/
def hasNul (text : String) : Bool :=
  text.toList.contains '\x00'

/-- Starts the program, or says why that is impossible. -/
def start (c : Command) (request : Request) (files : FileTree) : Except String Finished :=
  let arguments := c.arguments.map (fillIn request)
  if hasNul c.program || arguments.any hasNul then .error "nul byte found in provided data"
  else
    match find files c.program with
    | .error e => .error e.message
    | .ok program => .ok (program {
        name := Text.toOctets c.program
        arguments := arguments.map Text.toOctets
        environment := defaultEnvironment
        input := Text.encode request.input
        inputFault? := none
        outputFault? := none
        inputPlace? := none
        outputPlace? := none
        files })

/-- What the engine makes of how the program has ended. -/
def judge (c : Command) (request : Request) (f : Finished) : Except Error EngineOutput :=
  let quoted := "'" ++ c.program ++ "'"
  if !f.ending.isSuccess then
    .error (.engine (quoted ++ " exited with " ++ f.ending.text ++ ": " ++
      Text.trimmed (Text.decoded f.errors)))
  else if pipeCapacity < f.rest.length then
    .error (.engine ("failed to write input to " ++ quoted ++ ": Broken pipe (os error 32)"))
  else if f.output.isEmpty then
    .error (.engine (quoted ++ " produced no output for " ++ request.input))
  else .ok ⟨f.output, none, none⟩

/-- Typesets an equation with the program, which may also change files. -/
def typeset (c : Command) (request : Request) (files : FileTree) :
    Except Error EngineOutput × FileTree :=
  match c.start request files with
  | .error reason =>
    (.error (.engine ("failed to run '" ++ c.program ++ "': " ++ reason)), files)
  | .ok f => (c.judge request f, f.files)

end Command

/-- The host of a program: artifacts are written to the same files the program sees. -/
def Host.ofCommand (c : Command) : Host Workspace :=
  { Host.ofFiles with
    typeset := fun request w ↦
      let (result, files) := c.typeset request w.files
      (result, ⟨files, w.requests ++ [request]⟩) }

end DocumentMath
