import DocumentMath.AsciiMath.Symbol

/-!
# Expressions of AsciiMath

An expression is the syntax tree of a piece of AsciiMath. A bracketed group keeps the LaTeX of its
brackets; one that was never closed has no closing bracket. A closed group is a *matrix* when its
body is made of two or more closed groups in parentheses or square brackets, with single commas
between them, and all of them have the same number of parts between their commas (`matrixRows?`).
-/

namespace DocumentMath.AsciiMath

/-- A syntax tree. -/
inductive Expr where
  /-- LaTeX, or characters that stand for themselves. -/
  | atom (text : List Char)
  /-- Text that is taken as it is written. -/
  | verbatim (raw : List Char)
  | group (opening : List Char) (closing? : Option (List Char)) (body : List Expr)
  /-- A matrix: its rows are lists of cells. -/
  | matrix (opening closing : List Char) (rows : List (List (List Expr)))
  | unary (command : UnaryCommand) (argument : Expr)
  /-- A command whose argument is text. -/
  | textual (latex : List Char) (argument : Expr)
  | binary (command : BinaryCommand) (first second : Expr)
  | script (base : Expr) (sub? sup? : Option Expr)
  | fraction (numerator denominator : Expr)
  deriving Repr

namespace Expr

/-- Whether an expression is a comma that stands by itself. -/
def isComma : Expr → Bool
  | atom text => text == [',']
  | _ => false

/-- The expressions between the commas of a list. -/
def cells : List Expr → List (List Expr)
  | [] => [[]]
  | e :: es => if e.isComma then [] :: cells es else (cells es).modifyHead (e :: ·)

/-- The cells of a group that may be a row of a matrix: one that is closed, and opened by a
parenthesis or a square bracket. -/
def rowCells? : Expr → Option (List (List Expr))
  | group opening (some _) body =>
    if opening = ['('] ∨ opening = ['['] then some (cells body) else none
  | _ => none

/-- The rows of a body in which rows and commas alternate, with a row at both ends. -/
def alternatingRows? : List Expr → Option (List (List (List Expr)))
  | [] => none
  | [row] => row.rowCells?.map ([·])
  | row :: comma :: rest =>
    match row.rowCells?, comma.isComma, alternatingRows? rest with
    | some cells, true, some rows => some (cells :: rows)
    | _, _, _ => none

/-- The rows of a body that looks like a matrix. -/
def matrixRows? (body : List Expr) : Option (List (List (List Expr))) :=
  match alternatingRows? body with
  | some (row :: rows) =>
    if rows ≠ [] ∧ rows.all (·.length = row.length) then some (row :: rows) else none
  | _ => none

/-- The expression for a group: a matrix if it is closed and its body looks like one. -/
def ofGroup (opening : List Char) (closing? : Option (List Char)) (body : List Expr) : Expr :=
  match closing?, matrixRows? body with
  | some closing, some rows => matrix opening closing rows
  | _, _ => group opening closing? body

end Expr

end DocumentMath.AsciiMath
