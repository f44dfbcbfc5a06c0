import DocumentMath.Image.Detect

/-!
# Errors

Two kinds of errors concern a single equation: the engine rejects it, or what the engine returns is
not an image of the right format. A pass records these and goes on. Every other error ends the pass.
-/

namespace DocumentMath

/-- Why an operation on files fails. -/
inductive IoError where
  | notPermitted
  | notFound
  | noDevice
  | badDescriptor
  | permissionDenied
  | alreadyExists
  | notADirectory
  | isADirectory
  | noSpace
  | nameTooLong
  | nulInName
  | invalidUtf8
  deriving DecidableEq, Repr

namespace IoError

/-- What an operating system says about the error. -/
def reason : IoError → String
  | notPermitted => "Operation not permitted"
  | notFound => "No such file or directory"
  | noDevice => "No such device or address"
  | badDescriptor => "Bad file descriptor"
  | permissionDenied => "Permission denied"
  | alreadyExists => "File exists"
  | notADirectory => "Not a directory"
  | isADirectory => "Is a directory"
  | noSpace => "No space left on device"
  | nameTooLong => "File name too long"
  | nulInName => "file name contained an unexpected NUL byte"
  | invalidUtf8 => "stream did not contain valid UTF-8"

/-- The number an operating system gives the error; two are found before it is asked. -/
def code? : IoError → Option Nat
  | notPermitted => some 1
  | notFound => some 2
  | noDevice => some 6
  | badDescriptor => some 9
  | permissionDenied => some 13
  | alreadyExists => some 17
  | notADirectory => some 20
  | isADirectory => some 21
  | noSpace => some 28
  | nameTooLong => some 36
  | nulInName | invalidUtf8 => none

/-- The error as a message. -/
def message (e : IoError) : String :=
  match e.code? with
  | some code => e.reason ++ " (os error " ++ toString code ++ ")"
  | none => e.reason

end IoError

/-- Why a text is not a serialized document. -/
inductive JsonError where
  /-- It is not JSON. -/
  | malformed
  /-- It ends too early. -/
  | incomplete
  /-- It is JSON of the wrong shape. -/
  | mismatched
  deriving DecidableEq, Repr

/-- The error as a message. -/
def JsonError.message : JsonError → String
  | malformed => "malformed JSON"
  | incomplete => "unexpected end of JSON"
  | mismatched => "JSON of the wrong shape"

/-- An equation that could not be rendered. -/
structure Failure where
  /-- What the engine was asked to typeset. -/
  input : String
  /-- Why it failed. -/
  message : String
  deriving DecidableEq, Repr

/-- The failure as one line of text. -/
def Failure.text (f : Failure) : String :=
  f.input ++ ": " ++ f.message

/-- Why an operation fails. -/
inductive Error where
  | io (cause : IoError)
  | json (cause : JsonError)
  /-- The engine rejects an equation or cannot be run. -/
  | engine (message : String)
  | unknownFormat (cause : FormatError)
  /-- Equations that could not be rendered, as the outcome of a whole pass. -/
  | equationsFailed (failures : List Failure)
  /-- There is no node of the kind asked for at a path. -/
  | missingNode (kind path : String)
  | other (message : String)
  deriving DecidableEq, Repr

namespace Error

/-- The error as a message. -/
def message : Error → String
  | io cause => "I/O error: " ++ cause.message
  | json cause => "JSON error: " ++ cause.message
  | engine text => "Math engine error: " ++ text
  | unknownFormat cause => "Unknown image format: " ++ cause.message
  | equationsFailed failures =>
    toString failures.length ++ " equation(s) failed to render; first: " ++
      (failures.head?.map Failure.text).getD ""
  | missingNode kind path => "no " ++ kind ++ " at " ++ path
  | other text => text

/-- Whether the error concerns a single equation. -/
def isRenderFailure : Error → Bool
  | engine _ | unknownFormat _ => true
  | _ => false

end Error

end DocumentMath
