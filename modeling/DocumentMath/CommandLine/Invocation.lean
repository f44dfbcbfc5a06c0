import DocumentMath.CommandLine.Arguments
import DocumentMath.CommandLine.Help
import DocumentMath.Pass.Options

/-!
# Invocations

What the program is asked to do: run a pass over a document, list the inline equations of a text,
show what a document sets, or tell about itself. `Invocation.ofArguments` understands the arguments
of the program.
-/

namespace DocumentMath

/-- What is asked of a pass. -/
structure PassRequest where
  /-- The document, or `-` for what can be read. -/
  input : Path
  /-- Where the new document is written, if it is not printed. -/
  output? : Option Path
  overrides : Overrides
  engine? : Option String
  engineArguments : List String
  compact : Bool

/-- What the program is asked to do. -/
inductive Invocation where
  | pass (request : PassRequest)
  | scan (text : String) (dialect : Dialect) (json : Bool)
  | info (input : Path)
  /-- Tells about the program. -/
  | version
  /-- Tells the number of the version only. -/
  | versionNumber
  /-- Gives help. -/
  | help (text : String)

namespace Invocation

/-! ### Values -/

/-- The dialect with a name. -/
def dialect? (text : String) : Option Dialect :=
  [Dialect.latex, .asciiMath].find? (·.name == text)

/-- The format with exactly this name. -/
def format? (text : String) : Option Format :=
  Format.all.find? (·.name == text)

/-- Formats as values. -/
def formatValue : ValueDescription :=
  .oneOf "FORMAT" [(Format.png.name, "Raster images"), (Format.svg.name, "Vector images"),
    (Format.mathMl.name, "Embedded markup")]

/-- Dialects as values. -/
def dialectValue : ValueDescription :=
  .oneOf "STEM" [(Dialect.latex.name, "LaTeX"), (Dialect.asciiMath.name, "AsciiMath")]

/-- Numbers as values. -/
def numberValue (label : String) : ValueDescription :=
  { ValueDescription.any label with accepts := fun text ↦ (Decimal.readFloat? text).isSome }

/-! ### Commands -/

/-- The setting that names the engine, outside of the arguments. -/
def engineVariable : String := "STEMRENDER_ENGINE"

/-- The document as an operand. -/
def documentOperand : OperandDescription :=
  ⟨"<FILE>", "Input JSON tree (\"-\" for stdin)", .nonempty "FILE"⟩

/-- The command that runs a pass. -/
def passCommand (engineSetting? : Option String) : CommandDescription where
  name := "process"
  about := "Render the math in a JSON document tree"
  operand? := some documentOperand
  options :=
    [{ OptionDescription.valued "output" "Output file (stdout if not specified)"
        (.nonempty "FILE") with letter? := some 'o' },
      .valued "format" "Output format" formatValue,
      .valued "ppi" "Raster resolution" (numberValue "PPI"),
      .flag "inline" "Embed rendered markup instead of referencing files",
      .valued "imagesdir" "Images directory" (.nonempty "DIR"),
      .valued "imagesoutdir" "Images output directory" (.nonempty "DIR"),
      .valued "outdir" "Output root" (.nonempty "DIR"),
      { OptionDescription.valued "engine"
          "Engine program (reads LaTeX on stdin, writes the artifact to stdout)"
          (.any "PROGRAM") with
        fallback? := some ("env: " ++ engineVariable ++ "=" ++ engineSetting?.getD "") },
      { OptionDescription.valued "engine-arg"
          "Engine argument; \x7bformat\x7d and \x7bppi\x7d are expanded"
          { ValueDescription.any "ARG" with allowsHyphen := true } with
        repeatable := true },
      .flag "compact" "Output compact JSON"]

/-- The command that lists inline equations. -/
def scanCommand : CommandDescription where
  name := "scan"
  about := "List the inline macros in a text"
  operand? := some ⟨"<TEXT>", "Text to scan (\"-\" for stdin)", .any "TEXT"⟩
  options :=
    [{ OptionDescription.valued "stem" "Dialect of the generic stem macro" dialectValue with
        fallback? := some ("default: " ++ Dialect.asciiMath.name) },
      .flag "json" "Print JSON"]

/-- The command that shows what a document sets. -/
def infoCommand : CommandDescription :=
  ⟨"info", "Show the resolved configuration for a tree", some documentOperand, []⟩

/-- The command that tells about the program. -/
def versionCommand : CommandDescription :=
  ⟨"version", "Show version information", none, []⟩

/-- The commands. -/
def commands (engineSetting? : Option String) : List CommandDescription :=
  [passCommand engineSetting?, scanCommand, infoCommand, versionCommand]

/-! ### Understanding the arguments -/

/-- A path; it is not empty. -/
def path? (text : String) : Option Path :=
  if text.isEmpty then none else some ⟨text⟩

/-- The pass that arguments ask for. The engine may also be named outside of the arguments. -/
def passOf (engineSetting? : Option String) (arguments : List Argument) :
    Except UsageError Invocation := do
  let input ← Argument.neededOperand arguments
  let overrides : Overrides := {
    dialect := none
    format := Argument.valueAs? format? "format" arguments
    resolution := Argument.valueAs? Decimal.readFloat? "ppi" arguments
    embed := if Argument.hasFlag "inline" arguments then some true else none
    imagesDir := Argument.valueAs? path? "imagesdir" arguments
    imagesOutDir := Argument.valueAs? path? "imagesoutdir" arguments
    outDir := Argument.valueAs? path? "outdir" arguments }
  return .pass {
    input := ⟨input⟩
    output? := Argument.valueAs? path? "output" arguments
    overrides
    engine? := (Argument.values "engine" arguments).head?.or engineSetting?
    engineArguments := Argument.values "engine-arg" arguments
    compact := Argument.hasFlag "compact" arguments }

/-- The scan that arguments ask for. -/
def scanOf (arguments : List Argument) : Except UsageError Invocation := do
  let text ← Argument.neededOperand arguments
  let dialect := (Argument.valueAs? dialect? "stem" arguments).getD .asciiMath
  return .scan text dialect (Argument.hasFlag "json" arguments)

/-- The information that arguments ask for. -/
def infoOf (arguments : List Argument) : Except UsageError Invocation := do
  return .info ⟨← Argument.neededOperand arguments⟩

/-- What the arguments of a command ask for. -/
def ofCommand (c : CommandDescription) (texts : List String)
    (understand : List Argument → Except UsageError Invocation) : Except UsageError Invocation :=
  match Argument.read c texts with
  | .ok arguments => understand arguments
  | .error (.helpWanted detailed) => .ok (.help (Help.ofCommand c detailed))
  | .error e => .error e

/-- Help for the program. -/
def programHelp (engineSetting? : Option String) : Invocation :=
  .help (Help.ofProgram "Render math in document trees to images and markup"
    (commands engineSetting?))

/-- Help for the command that is named, if one is. -/
def helpOf (engineSetting? : Option String) : (names : List String) → Except UsageError Invocation
  | [] => .ok (programHelp engineSetting?)
  | ["help"] => .ok (.help Help.ofHelp)
  | name :: others =>
    match (commands engineSetting?).find? (·.name == name), others with
    | some c, [] => .ok (.help (Help.ofCommand c true))
    | some _, other :: _ => .error (.unknownCommand other)
    | none, _ => .error (.unknownCommand name)

/-- Understands the arguments of the program. -/
def ofArguments (engineSetting? : Option String) : List String → Except UsageError Invocation
  | [] => .error .missingCommand
  | "process" :: texts => ofCommand (passCommand engineSetting?) texts (passOf engineSetting?)
  | "scan" :: texts => ofCommand scanCommand texts scanOf
  | "info" :: texts => ofCommand infoCommand texts infoOf
  | "version" :: texts => ofCommand versionCommand texts fun _ ↦ .ok .version
  | "help" :: names => helpOf engineSetting? names
  | text :: _ =>
    match Argument.shape text with
    | .long "version" none => .ok .versionNumber
    | .short 'V' _ => .ok .versionNumber
    | .long "help" none => .ok (programHelp engineSetting?)
    | .short 'h' _ => .ok (programHelp engineSetting?)
    | .plain _ => .error (.unknownCommand text)
    | _ => .error (.unknownOption text)

end Invocation

end DocumentMath
