import DocumentMath.Proofs.AsciiMath.Nesting

/-!
# What an expression weighs

The weight of an expression is the sum of the weights of its parts (`Weights`). A group and the
matrix that it may look like weigh the same (`Expr.weight_ofGroup_some`): the rows of a matrix are
closed groups, and no other brackets and only the commas between its cells are left out, which all
have no weight.
-/

namespace DocumentMath.AsciiMath

/-- What the parts of an expression weigh. A comma weighs nothing, and neither do the brackets of a
closed group. -/
structure Weights where
  atom : List Char → Nat
  verbatim : List Char → Nat
  /-- The weight of a group without a closing bracket, beside that of its body. -/
  unclosed : Nat
  comma : atom [','] = 0

mutual

/-- The weight of an expression. -/
def Expr.weight (w : Weights) : Expr → Nat
  | .atom text => w.atom text
  | .verbatim raw => w.verbatim raw
  | .group _ none body => w.unclosed + listWeight w body
  | .group _ (some _) body => listWeight w body
  | .matrix _ _ rows => rowsWeight w rows
  | .unary _ argument => argument.weight w
  | .textual _ argument => argument.weight w
  | .binary _ first second => first.weight w + second.weight w
  | .script base sub? sup? => base.weight w + scriptWeight w sub? + scriptWeight w sup?
  | .fraction numerator denominator => numerator.weight w + denominator.weight w

/-- The weight of a script, if there is one. -/
def scriptWeight (w : Weights) : Option Expr → Nat
  | none => 0
  | some e => e.weight w

/-- The weight of a list. -/
def listWeight (w : Weights) : List Expr → Nat
  | [] => 0
  | e :: es => e.weight w + listWeight w es

/-- The weight of the rows of a matrix. -/
def rowsWeight (w : Weights) : List (List (List Expr)) → Nat
  | [] => 0
  | row :: rows => cellsWeight w row + rowsWeight w rows

/-- The weight of the cells of a row. -/
def cellsWeight (w : Weights) : List (List Expr) → Nat
  | [] => 0
  | cell :: cells => listWeight w cell + cellsWeight w cells

end

/-- The weight of a phrase. -/
def Phrase.weight (w : Weights) : Phrase → Nat
  | .simple e | .token e | .intermediate e | .item e | .entry _ e => e.weight w
  | .script _ e? => scriptWeight w e?
  | .list _ es => listWeight w es

variable {w : Weights}

theorem weight_withScripts {base : Expr} {sub? sup? : Option Expr} :
    (withScripts base sub? sup?).weight w =
      base.weight w + scriptWeight w sub? + scriptWeight w sup? := by
  unfold withScripts
  split
  · rfl
  · rw [Expr.weight]

namespace Expr

variable {body : List Expr}

theorem weight_comma : comma.weight w = 0 :=
  w.comma

/-- Cells weigh what the list weighs that they are cut from. -/
theorem cellsWeight_cells : cellsWeight w (cells body) = listWeight w body := by
  induction body with
  | nil => rfl
  | cons e body ih =>
    rw [cells, listWeight, ← ih]
    split
    · next hcomma => rw [cellsWeight, isComma_iff.mp hcomma, weight_comma, listWeight]
    · obtain ⟨cell, rest, hcells⟩ := List.exists_cons_of_ne_nil (cells_ne_nil body)
      rw [hcells, List.modifyHead_cons, cellsWeight, cellsWeight, listWeight, Nat.add_assoc]

theorem cellsWeight_of_isRow {e : Expr} {row : List (List Expr)} (h : IsRow e row) :
    cellsWeight w row = e.weight w := by
  cases h with
  | group _ cut =>
    obtain rfl := isCutAtCommas_iff.mp cut
    rw [cellsWeight_cells, weight]

/-- Rows weigh what they weigh with commas between them. -/
theorem rowsWeight_of_forall₂ {groups : List Expr} {rows : List (List (List Expr))}
    (h : List.Forall₂ IsRow groups rows) :
    rowsWeight w rows = listWeight w (groups.intersperse comma) := by
  induction h with
  | nil => rfl
  | cons hrow hrows ih =>
    cases hrows with
    | nil => rw [List.intersperse_singleton, rowsWeight, listWeight, cellsWeight_of_isRow hrow]; rfl
    | cons =>
      rw [List.intersperse_cons_cons, rowsWeight, ih, cellsWeight_of_isRow hrow, listWeight,
        listWeight, weight_comma, Nat.zero_add]

theorem weight_ofGroup_none (opening : List Char) :
    (ofGroup opening none body).weight w = w.unclosed + listWeight w body := by
  rw [ofGroup, weight]
  simp

theorem weight_ofGroup_some (opening closing : List Char) :
    (ofGroup opening (some closing) body).weight w = listWeight w body := by
  rcases ofGroup_cases opening (some closing) body with ⟨_, rows, -, hlooks, heq⟩ | heq <;>
    rw [heq, weight]
  obtain ⟨groups, hgroups, rfl⟩ := hlooks.alternating
  exact rowsWeight_of_forall₂ hgroups

end Expr

end DocumentMath.AsciiMath
