import DocumentMath.Command.Engine
import DocumentMath.CommandLine.Invocation
import DocumentMath.Pass.Run

/-!
# The command line

The program gets its arguments, a setting for the engine, bytes to read and files, and leaves a
status, two texts and files. Status 0 says that all went well, 1 that something failed, and 2 that
the arguments were not understood.
-/

namespace DocumentMath.CommandLine

open Text (Bytes)

/-- What the program is given. -/
structure Situation where
  arguments : List String
  /-- The program that is the engine unless the arguments name one. -/
  engineSetting? : Option String
  /-- What can be read. -/
  input : Bytes
  files : FileTree
  /-- Where relative directories start. -/
  workingDirectory : Path

/-- What the program leaves. -/
structure Result where
  status : Nat
  output : String
  errors : String
  files : FileTree

/-- The name and the version of the program. -/
def versionLine : String := Help.programName ++ " 0.3.0\n"

/-- A failure, with a message. -/
def failure (message : String) (files : FileTree) : Result :=
  ⟨1, "", "Error: " ++ message ++ "\n", files⟩

/-- The text a path leads to, or what can be read. -/
def readInput (s : Situation) (path : Path) : Except IoError String :=
  if path.text = "-" ∨ s.files.device? path = some (.stream 0) then
    match Text.decodeStrict? s.input with
    | some text => .ok text
    | none => .error .invalidUtf8
  else s.files.readText path

/-- The document a path leads to, or a message. -/
def readDocument (s : Situation) (path : Path) : Except String Document :=
  match readInput s path with
  | .error e => .error e.message
  | .ok text => (Document.ofJsonText text).mapError fun e ↦ (Error.json e).message

/-! ### Passes -/

/-- The report of a pass, with a line for each equation that could not be rendered. -/
def reportLines (r : Report) : String :=
  "Done: " ++ r.text ++ "\n" ++ String.join (r.failures.map fun f ↦ "  ✗ " ++ f.text ++ "\n")

/-- Tells how a pass has gone once the new document has been put somewhere. -/
def conclude (r : Report) (output errors : String) (files : FileTree) : Result :=
  let errors := errors ++ reportLines r
  if r.hasFailures then
    ⟨1, output, errors ++ "Error: " ++ (Error.equationsFailed r.failures).message ++ "\n", files⟩
  else ⟨0, output, errors, files⟩

/-- Puts the new document where it belongs. -/
def deliver (request : PassRequest) (d : Document) (r : Report) (files : FileTree) : Result :=
  let text := d.toJsonText (if request.compact then .compact else .pretty)
  match request.output? with
  | none => conclude r (text ++ "\n") "" files
  | some path =>
    let saved := "Saved to " ++ path.text ++ "\n"
    match files.device? path with
    | some (.stream 0) => conclude r "" saved files
    | some (.stream 1) => conclude r text saved files
    | some (.stream 2) => conclude r "" (text ++ saved) files
    | _ =>
      match files.write path (Text.encode text) with
      | .error e => failure e.message files
      | .ok files => conclude r "" saved files

/-- Runs a pass. -/
def runPass (s : Situation) (request : PassRequest) : Result :=
  match request.engine? with
  | none => failure "no engine given; use --engine or STEMRENDER_ENGINE" s.files
  | some program =>
    match readDocument s request.input with
    | .error message => failure message s.files
    | .ok d =>
      let host := Host.ofCommand ⟨program, request.engineArguments⟩
      let pass : Pass Workspace := ⟨host, request.overrides.optionsFor d, s.workingDirectory⟩
      let outcome := pass.run d (.ofFiles s.files)
      match outcome.result with
      | .error e => failure e.message outcome.world.files
      | .ok r => deliver request outcome.document r outcome.world.files

/-! ### Scans -/

/-- The input for the engine of an inline equation, unless it is escaped or blank. -/
def scannedInput? (o : Inline.Occurrence) : Option String :=
  if o.escaped || o.isBlank then none
  else some (Equation.ofPayload o.dialect true o.payload).input

/-- An inline equation as an object. -/
def occurrenceJson (o : Inline.Occurrence) : Json :=
  .object [("dialect", .string o.dialect.shortName), ("end", .natural o.stop),
    ("escaped", .bool o.escaped), ("latex", .ofString? (scannedInput? o)),
    ("macro", .string o.name.text), ("payload", .string o.payload), ("start", .natural o.start),
    ("subs", .ofString? o.subs)]

/-- An inline equation as a line of text. -/
def occurrenceLine (o : Inline.Occurrence) : String :=
  toString o.start ++ ".." ++ toString o.stop ++ " " ++
    (match scannedInput? o with
    | some input => o.dialect.name ++ " " ++ input
    | none => if o.escaped then "escaped " ++ o.payload else "empty") ++ "\n"

/-- Lists inline equations. -/
def scanText (found : List Inline.Occurrence) (json : Bool) : String :=
  if json then String.ofList (Json.array (found.map occurrenceJson)).pretty ++ "\n"
  else if found.isEmpty then "No inline math found\n"
  else String.join (found.map occurrenceLine)

/-- Lists the inline equations of a text; `-` stands for what can be read. -/
def runScan (s : Situation) (text : String) (dialect : Dialect) (json : Bool) : Result :=
  match if text = "-" then readInput s ⟨text⟩ else .ok text with
  | .error e => failure e.message s.files
  | .ok text => ⟨0, scanText (Inline.scan dialect text) json, "", s.files⟩

/-! ### Information -/

/-- A line under a heading. -/
def ruler : String := String.ofList (List.replicate 40 '─') ++ "\n"

/-- A name and a value. -/
def labelled (name value : String) : String :=
  name ++ ": " ++ value ++ "\n"

/-- What a document sets, and what follows from it. -/
def infoText (input : Path) (d : Document) (o : Options) (l : OutputLocation) : String :=
  "Document Information\n" ++ ruler ++ labelled "File" input.text ++
    labelled "Blocks" (toString d.totalBlocks) ++
    labelled "Candidate nodes" (toString d.candidates.length) ++ "\nConfiguration\n" ++ ruler ++
    labelled "Dialect" o.dialect.name ++ labelled "Format" o.format.name ++
    labelled "PPI" (floatText o.effectiveResolution) ++
    labelled "Inline" (if o.embed then "Yes" else "No") ++
    labelled "Output dir" l.directory.text ++ labelled "Target prefix" l.lead ++
    String.join (o.warnings.map (labelled "warning"))

/-- Shows what a document sets. -/
def runInfo (s : Situation) (input : Path) : Result :=
  match readDocument s input with
  | .error message => failure message s.files
  | .ok d =>
    let o := Options.ofDocument d
    ⟨0, infoText input d o (o.location s.workingDirectory), "", s.files⟩

/-! ### The program -/

/-- Does what the program is asked to do. -/
def run (s : Situation) : Result :=
  match Invocation.ofArguments s.engineSetting? s.arguments with
  | .ok (.pass request) => runPass s request
  | .ok (.scan text dialect json) => runScan s text dialect json
  | .ok (.info input) => runInfo s input
  | .ok .version =>
    ⟨0, versionLine ++ "Math rendering for document trees\n\nLicense: MIT\n", "", s.files⟩
  | .ok .versionNumber => ⟨0, versionLine, "", s.files⟩
  | .ok (.help text) => ⟨0, text, "", s.files⟩
  | .error e => ⟨2, "", "error: " ++ e.message ++ "\n\n" ++ Help.programUsage, s.files⟩

end DocumentMath.CommandLine
