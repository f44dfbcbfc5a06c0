import DocumentMath.Digest.Md5
import DocumentMath.Path.Location
import DocumentMath.Render.Engine

/-!
# Rendering equations

A renderer turns delimited LaTeX into artifacts. An artifact is named by an identifier: the one
given for the equation, or else one computed from what is to be typeset, so that the same equation
is named alike everywhere. Each identifier is rendered once, and the artifact is kept for later
calls.

What the engine returns is accepted only if it is in the format asked for and, for a raster image,
has a size. An accepted answer is written to a file under the identifier, unless artifacts are to be
embedded; the directory for files is created for the first of them. A call that fails leaves the
artifacts that are kept as they are.
-/

namespace DocumentMath

open Text (Bytes)

/-- What the identifier of an equation starts with when it is computed. -/
def identifierLead : String := "stem-"

/-- The identifier computed from delimited LaTeX. -/
def contentIdentifier (input : String) : String :=
  identifierLead ++ Md5.hexDigest input

/-- The identifier of an equation: the one given for it, unless that is empty, or the computed one.
-/
def identifierOf (explicit? : Option String) (input : String) : String :=
  (explicit?.filter (!·.isEmpty)).getD (contentIdentifier input)

/-- A rendered equation. -/
structure Artifact where
  identifier : String
  format : Format
  /-- The bytes of the image or of the markup. -/
  data : Bytes
  /-- The width in points, for a raster image. -/
  width? : Option UInt32
  /-- The height in points, for a raster image. -/
  height? : Option UInt32
  /-- How the document refers to the file, if it was written to one. -/
  target? : Option String
  /-- The file it was written to. -/
  path? : Option Path
  deriving DecidableEq, Repr

namespace Artifact

/-- The data as text. -/
def markup (a : Artifact) : String :=
  Text.decoded a.data

/-- Whether the artifact was written to a file. -/
def isFile (a : Artifact) : Bool :=
  a.path?.isSome

end Artifact

/-! ### Renderers -/

/-- How equations are rendered. -/
structure RenderSettings where
  format : Format
  /-- The resolution in pixels per inch. -/
  resolution : Float
  /-- Whether artifacts are embedded in the document instead of being written to files. -/
  embed : Bool
  location : OutputLocation

/-- What a renderer keeps from one call to the next. -/
structure Renderer where
  /-- The artifacts so far, under their identifiers. -/
  cache : List (String × Artifact)
  /-- Whether the directory for files has been created. -/
  directoryReady : Bool
  /-- The number of files written. -/
  filesWritten : Nat

namespace Renderer

/-- A renderer that has not rendered anything yet. -/
def initial : Renderer := ⟨[], false, 0⟩

/-- The artifact kept under an identifier. -/
def cached? (r : Renderer) (identifier : String) : Option Artifact :=
  (r.cache.find? (·.1 == identifier)).map (·.2)

/-- The renderer with one more artifact. -/
def keep (a : Artifact) (r : Renderer) : Renderer :=
  { r with cache := r.cache ++ [(a.identifier, a)] }

end Renderer

/-! ### Accepting an answer -/

namespace RenderSettings

/-- The name of the file for an identifier. -/
def fileName (s : RenderSettings) (identifier : String) : String :=
  identifier ++ "." ++ s.format.fileExtension

/-- The size in pixels of an answer: the one the engine reports, or the one in its header. -/
def pixelSize (output : EngineOutput) : Except FormatError (UInt32 × UInt32) :=
  match output.width?, output.height? with
  | some width, some height => .ok (width, height)
  | _, _ => Image.size? output.data

/-- The artifact that an answer makes before it is written anywhere, if it is accepted. -/
def accept (s : RenderSettings) (identifier : String) (output : EngineOutput) :
    Except FormatError Artifact := do
  Image.check s.format output.data
  if s.format.isRaster then
    let (width, height) ← pixelSize output
    .ok ⟨identifier, s.format, output.data, some (Image.points width s.resolution),
      some (Image.points height s.resolution), none, none⟩
  else
    .ok ⟨identifier, s.format, output.data, none, none, none, none⟩

/-- The artifact that has been written to a file. -/
def written (s : RenderSettings) (a : Artifact) : Artifact :=
  { a with
    target? := some (s.location.target (s.fileName a.identifier))
    path? := some (s.location.filePath (s.fileName a.identifier)) }

end RenderSettings

/-! ### Rendering -/

/-- A renderer and the state of its surroundings. -/
structure RenderState (σ : Type) where
  renderer : Renderer
  world : σ

namespace RenderState

variable {σ : Type}

/-- Creates the directory for files, if that has not been done. -/
def ensureDirectory (host : Host σ) (s : RenderSettings) (st : RenderState σ) :
    Except Error Unit × RenderState σ :=
  if st.renderer.directoryReady then (.ok (), st)
  else
    match host.createDirectory s.location.directory st.world with
    | (.ok (), world) => (.ok (), ⟨{ st.renderer with directoryReady := true }, world⟩)
    | (.error e, world) => (.error (.io e), { st with world })

/-- Writes an artifact to its file. -/
def writeFile (host : Host σ) (s : RenderSettings) (a : Artifact) (st : RenderState σ) :
    Except Error Artifact × RenderState σ :=
  match st.ensureDirectory host s with
  | (.error e, st) => (.error e, st)
  | (.ok (), st) =>
    match host.writeFile (s.location.filePath (s.fileName a.identifier)) a.data st.world with
    | (.error e, world) => (.error (.io e), { st with world })
    | (.ok (), world) =>
      (.ok (s.written a),
        ⟨{ st.renderer with filesWritten := st.renderer.filesWritten + 1 }, world⟩)

/-- Puts an accepted artifact where it belongs: nowhere if artifacts are embedded, and in its file
otherwise. -/
def store (host : Host σ) (s : RenderSettings) (a : Artifact) (st : RenderState σ) :
    Except Error Artifact × RenderState σ :=
  if s.embed then (.ok a, st) else st.writeFile host s a

/-- Renders an equation that no artifact is kept for. -/
def renderNew (host : Host σ) (s : RenderSettings) (identifier input : String)
    (st : RenderState σ) : Except Error Artifact × RenderState σ :=
  match host.typeset ⟨input, s.format, s.resolution⟩ st.world with
  | (.error e, world) => (.error e, { st with world })
  | (.ok output, world) =>
    match s.accept identifier output with
    | .error e => (.error (.unknownFormat e), { st with world })
    | .ok a =>
      match RenderState.store host s a { st with world } with
      | (.error e, st) => (.error e, st)
      | (.ok a, st) => (.ok a, { st with renderer := st.renderer.keep a })

/-- Renders delimited LaTeX, with an identifier given for it or not. -/
def render (host : Host σ) (s : RenderSettings) (input : String) (explicit? : Option String)
    (st : RenderState σ) : Except Error Artifact × RenderState σ :=
  match st.renderer.cached? (identifierOf explicit? input) with
  | some a => (.ok a, st)
  | none => st.renderNew host s (identifierOf explicit? input) input

end RenderState

end DocumentMath
