import DocumentMath.Error
import DocumentMath.Image.Format
import DocumentMath.Path.Basic

/-!
# Engines and hosts

An engine typesets one equation at a time. It gets the delimited LaTeX with the format and the
resolution asked for, and returns the bytes of an image or of markup, possibly with a size in
pixels, or rejects the equation.

A *host* is everything a pass needs of its surroundings: an engine, and a place to put files. Its
operations take the state of the surroundings and return it, so that nothing is assumed of them:
an engine may answer the same request in different ways, and any write may fail.
-/

namespace DocumentMath

open Text (Bytes)

/-- What an engine is asked to typeset. -/
structure Request where
  /-- LaTeX between delimiters. -/
  input : String
  format : Format
  /-- The resolution in pixels per inch. -/
  resolution : Float

/-- What an engine returns. -/
structure EngineOutput where
  /-- The bytes of an image or of markup. -/
  data : Bytes
  /-- The width in pixels, if the engine reports it. -/
  width? : Option UInt32
  /-- The height in pixels, if the engine reports it. -/
  height? : Option UInt32
  deriving DecidableEq, Repr

/-- An engine whose answer depends on the request only. -/
abbrev Engine := Request → Except Error EngineOutput

/-- What a pass needs of surroundings with states in `σ`. -/
structure Host (σ : Type) where
  /-- Typesets an equation. -/
  typeset : Request → σ → Except Error EngineOutput × σ
  /-- Creates a directory and the directories it is in. -/
  createDirectory : Path → σ → Except IoError Unit × σ
  /-- Writes a file. -/
  writeFile : Path → Bytes → σ → Except IoError Unit × σ

end DocumentMath
