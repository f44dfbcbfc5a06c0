import DocumentMath.Files.Tree
import DocumentMath.Shell.Pattern
import DocumentMath.Text.Octets

/-!
# Patterns of paths

An argument that is a pattern stands for the paths that fit it, in order. Each part of a path fits a
part of the pattern; what starts with a dot fits only what starts with one too. A pattern that no
path fits stands for itself.
-/

namespace DocumentMath.Shell.PathPattern

/-- The characters of marks. -/
def charsOf (ms : List Mark) : List Char :=
  ms.map (·.1)

/-- Whether marks are a pattern, and not the text itself. -/
def isWild (ms : List Mark) : Bool :=
  (patternOf ms).any PatternPart.isWild

/-- What stands at a path. -/
def whatStandsAt? (files : FileTree) (path : List Char) : Option (Place × Entry) :=
  (files.find ⟨Text.fromOctets (String.ofList path)⟩).toOption

/-- The names in a directory, the current one if no path is given. -/
def namesIn (files : FileTree) (directory : List Char) : List (List Char) :=
  match whatStandsAt? files (if directory.isEmpty then ['.'] else directory) with
  | some (place, e) =>
    if e.isDirectory then
      ['.'] :: ['.', '.'] :: (files.names place).map fun name ↦ (Text.toOctets name).toList
    else []
  | none => []

/-- The names in a directory that fit a part of a pattern. -/
def fittingNames (files : FileTree) (directory : List Char) (ms : List Mark) :
    List (List Char) :=
  (namesIn files directory).filter fun name ↦
    patternMatches ms name && (name.head? != some '.' || (charsOf ms).head? == some '.')

/-- The paths behind a path that fit the parts of a pattern. -/
def pathsBehind (files : FileTree) (path : List Char) : List (List Mark) → List (List Char)
  | [] => if (whatStandsAt? files path).isSome then [path] else []
  | ms :: rest =>
    let between : List Char := if rest.isEmpty then [] else ['/']
    if isWild ms then
      (fittingNames files path ms).flatMap fun name ↦
        if !rest.isEmpty && !((whatStandsAt? files (path ++ name)).any (·.2.isDirectory)) then []
        else pathsBehind files (path ++ name ++ between) rest
    else pathsBehind files (path ++ charsOf (applyBackslashes ms) ++ between) rest

/-- The parts of a pattern between slashes. -/
def partsOf (ms : List Mark) : List (List Mark) :=
  ms.foldr (fun m parts ↦
    if m.1 = '/' then [] :: parts
    else
      match parts with
      | [] => [[m]]
      | p :: ps => (m :: p) :: ps) [[]]

/-- The arguments that marks stand for. -/
def expand (files : FileTree) (ms : List Mark) : List String :=
  let itself := String.ofList (charsOf ms)
  if !isWild ms then [itself]
  else
    match pathsBehind files [] (partsOf ms) with
    | [] => [itself]
    | paths => (paths.map String.ofList).mergeSort (· ≤ ·)

end DocumentMath.Shell.PathPattern
