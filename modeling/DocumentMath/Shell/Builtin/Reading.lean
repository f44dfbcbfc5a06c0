import DocumentMath.Shell.Builtin.Variables

/-!
# Reading lines

A script can read a line into variables. Each gets a field, and the last one all that is left. A
backslash takes away what the next character means.
-/

namespace DocumentMath.Shell.Builtin

open Text (Bytes)

/-- A line that has been read. -/
structure Line where
  pieces : List Piece
  /-- Whether a line feed ends it. -/
  isComplete : Bool
  /-- What is left to read. -/
  rest : Bytes

/-- The line with a character in front of it. -/
def Line.cons (c : Char) (l : Line) : Line :=
  { l with pieces :=
      match l.pieces with
      | .split cs :: ps => .split (c :: cs) :: ps
      | ps => .split [c] :: ps }

/-- Reads a line. Unless it is raw, a backslash is left out, and a line goes on behind one at its
end. -/
def readLine (raw : Bool) : (escaped : Bool) → Bytes → Line
  | _, [] => ⟨[], false, []⟩
  | escaped, b :: bs =>
    let c := Char.ofNat b.toNat
    if b = 0 then readLine raw escaped bs
    else if escaped then
      let l := readLine raw false bs
      if c = '\n' then l else { l with pieces := .whole [(c, true)] :: l.pieces }
    else if c = '\n' then ⟨[], true, bs⟩
    else if c = '\\' ∧ !raw then readLine raw true bs
    else (readLine raw false bs).cons c

/-- Reads a line into variables. -/
def read : Builtin := fun x arguments ↦ do
  let r ← Action.letters x "r" "p" arguments
  if r.operands.isEmpty then Action.die x "arg count"
  let st ← get
  let l ←
    match st.contentOf 0 with
    | .ok bs => pure (readLine (r.has 'r') false bs)
    | .error _ => pure ⟨[], false, []⟩
  modify (·.leaveIn 0 l.rest)
  let fields := (fieldsOf st.separators (some r.operands.length) l.pieces).map fun ms ↦
    String.ofList (ms.map (·.1))
  r.operands.zipIdx.forM fun (name, i) ↦ do
    checkName x name
    Action.assign x name (fields[i]?.getD "")
  Action.setStatus (if l.isComplete then 0 else 1)

end DocumentMath.Shell.Builtin
