/-!
# Paths

A path is a text in which slashes separate names. It is read as a list of *components*: a root if it
starts with a slash, then names and the two special components `.` and `..`. Empty components, and
every `.` but one at the very start of a relative path, do not count, so several texts stand for
the same components.

Two ways of building paths differ in what they keep. `join` puts texts together and keeps them as
they are; `ofComponents` pushes components onto an empty path one by one. `normalize` drops `.` and
lets `..` take back the name in front of it, without asking any file system.
-/

namespace DocumentMath

/-- A path as it is written. -/
structure Path where
  text : String
  deriving DecidableEq, Repr, Inhabited

namespace Path

/-- A part of a path. -/
inductive Component where
  | root
  | current
  | parent
  | name (text : List Char)
  deriving DecidableEq, Repr

/-- The text of a component. -/
def Component.text : Component → List Char
  | root => ['/']
  | current => ['.']
  | parent => ['.', '.']
  | name text => text

/-! ### Components of a text -/

/-- The texts between slashes. -/
def segments : List Char → List (List Char)
  | [] => [[]]
  | c :: cs => if c = '/' then [] :: segments cs else (segments cs).modifyHead (c :: ·)

/-- The component of a segment behind the first, if it counts. -/
def component? (segment : List Char) : Option Component :=
  if segment = [] ∨ segment = ['.'] then none
  else if segment = ['.', '.'] then some .parent
  else some (.name segment)

/-- The components of a text. -/
def componentsOf (cs : List Char) : List Component :=
  match segments cs with
  | [] => []
  | first :: rest =>
    let lead :=
      if cs.head? = some '/' then [Component.root]
      else if first = ['.'] then [.current]
      else (component? first).toList
    lead ++ rest.filterMap component?

/-- The components of a path. -/
def components (p : Path) : List Component :=
  componentsOf p.text.toList

/-- Whether the path starts at the root. -/
def isAbsolute (p : Path) : Bool :=
  p.text.toList.head? == some '/'

/-- Whether nothing is written. -/
def isEmpty (p : Path) : Bool :=
  p.text.isEmpty

/-! ### Building paths -/

/-- One text pushed onto another: an absolute one takes its place, any other is put after a
slash. -/
def pushText (cs added : List Char) : List Char :=
  if added.head? = some '/' then added
  else if cs = [] ∨ cs.getLast? = some '/' then cs ++ added
  else cs ++ '/' :: added

/-- The path `q` seen from the directory `p`. -/
def join (p q : Path) : Path :=
  ⟨String.ofList (pushText p.text.toList q.text.toList)⟩

/-- The text of components pushed one after the other. -/
def textOf (components : List Component) : List Char :=
  components.foldl (fun cs c ↦ pushText cs c.text) []

/-- The path of components pushed one after the other. -/
def ofComponents (components : List Component) : Path :=
  ⟨String.ofList (textOf components)⟩

/-! ### Normal form -/

/-- Adds a component to a stack of normalized components, innermost first. -/
def pushNormal (stack : List Component) : Component → List Component
  | .current => stack
  | .parent =>
    match stack with
    | .name _ :: rest => rest
    | .root :: rest => .root :: rest
    | _ => .parent :: stack
  | c => c :: stack

/-- The components without `.` and with `..` folded into the names in front of them. A `..` above
the root is dropped, and one above the start of a relative path is kept. -/
def normalComponents (components : List Component) : List Component :=
  (components.foldl pushNormal []).reverse

/-- The path in normal form; a path that goes nowhere is `.`. -/
def normalize (p : Path) : Path :=
  match normalComponents p.components with
  | [] => ⟨"."⟩
  | cs => ofComponents cs

/-- The normal form of `p` seen from the directory `base`. -/
def resolveAgainst (p base : Path) : Path :=
  if p.isAbsolute then p.normalize else (base.join p).normalize

/-! ### Relative paths -/

/-- What is left of two lists after the elements they both start with. -/
def dropCommon : List Component → List Component → List Component × List Component
  | a :: as, b :: bs => if a = b then dropCommon as bs else (a :: as, b :: bs)
  | as, bs => (as, bs)

/-- The path that leads from the directory `source` to `target`: one step up for each component
that only `source` has, then the components that only `target` has. -/
def relative (source target : Path) : Path :=
  let (up, down) := dropCommon source.normalize.components target.normalize.components
  match textOf (up.map (fun _ ↦ .parent) ++ down) with
  | [] => ⟨"."⟩
  | cs => ⟨String.ofList cs⟩

/-- The components of a path with single slashes between them. -/
def withSlashes (p : Path) : String :=
  match p.components with
  | [.root] => "/"
  | cs =>
    String.ofList <| ['/'].intercalate <| cs.map fun
      | .root => []
      | c => c.text

end Path

end DocumentMath
