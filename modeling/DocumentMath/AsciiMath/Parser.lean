import DocumentMath.AsciiMath.Expr
import DocumentMath.AsciiMath.Token

/-!
# Reading AsciiMath

The grammar has three levels. A *simple* expression is a token with its arguments: a bracketed
group, a command applied to simple expressions, a text, or an atom. An *intermediate* expression is
a simple one with its scripts. An *item* is an intermediate expression, or two of them with a slash
between them, and an expression is a list of items.

Simple expressions nest at most `maxDepth` deep, and what stands deeper is kept as it is written.
So the reader for simple expressions is defined by recursion on the number of levels that are left:
`simple n` reads one token and takes its arguments with `simple (n - 1)`. The readers of the other
levels are the same at every depth and take the reader for simple expressions as a parameter. A list
is read with as many steps as it has characters, which is enough, as each item takes at least one.
-/

namespace DocumentMath.AsciiMath

/-- The deepest nesting that is read; what stands deeper is kept as it is written. -/
def maxDepth : Nat := 128

/-- A reader takes an expression off the front of a text. -/
abbrev Reader := List Char → Expr × List Char

/-- A script of the given role, if one comes next. -/
def script? (simple : Reader) (role : Role) (cs : List Char) : Option Expr × List Char :=
  if nextIs role cs then
    let (e, rest) := simple (skipToken cs)
    (some e, rest)
  else
    (none, cs)

/-- An expression with its scripts, which are left out if there are none. -/
def withScripts (base : Expr) (sub? sup? : Option Expr) : Expr :=
  match sub?, sup? with
  | none, none => base
  | _, _ => .script base sub? sup?

/-- A simple expression and its scripts. A subscript may come before or after a superscript. -/
def intermediate (simple : Reader) : Reader := fun cs ↦
  let (base, cs) := simple cs
  let (sub?, cs) := script? simple .sub cs
  let (sup?, cs) := script? simple .sup cs
  match sub?, sup? with
  | none, some sup =>
    let (sub?, cs) := script? simple .sub cs
    (withScripts base sub? (some sup), cs)
  | _, _ => (withScripts base sub? sup?, cs)

/-- An intermediate expression, or a fraction of two. -/
def item (simple : Reader) : Reader := fun cs ↦
  let (e, cs) := intermediate simple cs
  if nextIs .divide cs then
    let (denominator, cs) := intermediate simple (skipToken cs)
    (.fraction e denominator, cs)
  else
    (e, cs)

/-- At most `steps` items. Inside a group a right bracket ends the list; outside it is an atom. -/
def items (simple : Reader) (inGroup : Bool) : (steps : Nat) → List Char → List Expr × List Char
  | 0, cs => ([], cs)
  | steps + 1, cs =>
    match next? cs with
    | none => ([], cs)
    | some (.symbol ⟨_, .rightBracket latex⟩, rest) =>
      if inGroup then ([], cs)
      else
        let (es, rest) := items simple inGroup steps rest
        (.atom latex :: es, rest)
    | some _ =>
      let (e, rest) := item simple cs
      let (es, rest) := items simple inGroup steps rest
      (e :: es, rest)

/-- A list of items, up to the end of the text or of the group. -/
def list (simple : Reader) (inGroup : Bool) (cs : List Char) : List Expr × List Char :=
  items simple inGroup cs.length cs

/-- The rest of a group after its opening bracket. -/
def group (simple : Reader) (opening : List Char) : Reader := fun cs ↦
  let (body, cs) := list simple true cs
  match next? cs with
  | some (.symbol ⟨_, .rightBracket closing⟩, rest) => (.ofGroup opening (some closing) body, rest)
  | _ => (.ofGroup opening none body, skipToken cs)

/-- The expression that starts with a symbol of the given role. -/
def ofRole (simple : Reader) : Role → Reader
  | .constant latex, cs => (.atom latex, cs)
  | .leftBracket latex, cs => group simple latex cs
  | .rightBracket latex, cs => (.atom latex, cs)
  | .unary command, cs =>
    let (argument, cs) := simple cs
    (.unary command argument, cs)
  | .textual latex, cs =>
    match rawGroup? cs with
    | some (raw, cs) => (.textual latex (.verbatim raw), cs)
    | none =>
      let (argument, cs) := simple cs
      (.textual latex argument, cs)
  | .binary command, cs =>
    let (first, cs) := simple cs
    let (second, cs) := simple cs
    (.binary command first second, cs)
  | .sub, cs => (.atom "\\_".toList, cs)
  | .sup, cs => (.atom "\\hat\x7b\x7d".toList, cs)
  | .divide, cs => (.atom ['/'], cs)

/-- The expression that starts with the next token; nothing at the end of the text. -/
def token (simple : Reader) : Reader := fun cs ↦
  match next? cs with
  | none => (.atom [], cs)
  | some (.quoted text, rest) => (.verbatim text, rest)
  | some (.number digits, rest) => (.atom digits, rest)
  | some (.character c, rest) => (.atom [c], rest)
  | some (.symbol s, rest) => ofRole simple s.role rest

/-- A simple expression with the given number of levels left. -/
def simple : (levels : Nat) → Reader
  | 0, cs => (.atom (Text.trim cs), [])
  | levels + 1, cs => token (simple levels) cs

/-- The items of a whole text. -/
def parse (text : List Char) : List Expr :=
  (list (simple maxDepth) false text).1

end DocumentMath.AsciiMath
