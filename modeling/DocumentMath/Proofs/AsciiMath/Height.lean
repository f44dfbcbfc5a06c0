import DocumentMath.Proofs.AsciiMath.Nesting

/-!
# AsciiMath is read to its end, to shallow trees

The reader goes forward with every expression of a list, whatever stands in the text, so that it
comes to its end. How high the trees are that it builds is bounded by the levels of nesting alone:
each level puts at most a script, a fraction and a group on top of the expressions within it
(`Reads.height_le`).
-/

namespace DocumentMath.AsciiMath

/-! ### The height of an expression -/

mutual

/-- How many expressions stand one within the other. -/
def Expr.height : Expr → Nat
  | .atom _ => 1
  | .verbatim _ => 1
  | .group _ _ body => listHeight body + 1
  | .matrix _ _ rows => rowsHeight rows + 1
  | .unary _ argument => argument.height + 1
  | .textual _ argument => argument.height + 1
  | .binary _ first second => max first.height second.height + 1
  | .script base sub? sup? => max base.height (max (scriptHeight sub?) (scriptHeight sup?)) + 1
  | .fraction numerator denominator => max numerator.height denominator.height + 1

/-- The height of a script, which is zero if there is none. -/
def scriptHeight : Option Expr → Nat
  | none => 0
  | some e => e.height

/-- The height of the highest expression of a list. -/
def listHeight : List Expr → Nat
  | [] => 0
  | e :: es => max e.height (listHeight es)

/-- The height of the highest cell in the rows of a matrix. -/
def rowsHeight : List (List (List Expr)) → Nat
  | [] => 0
  | row :: rows => max (cellsHeight row) (rowsHeight rows)

/-- The height of the highest cell of a row. -/
def cellsHeight : List (List Expr) → Nat
  | [] => 0
  | cell :: cells => max (listHeight cell) (cellsHeight cells)

end

section Bounds

variable {n : Nat}

theorem listHeight_le {es : List Expr} : listHeight es ≤ n ↔ ∀ e ∈ es, e.height ≤ n := by
  induction es with
  | nil => simp [listHeight]
  | cons e es ih => rw [listHeight, Nat.max_le, List.forall_mem_cons, ih]

theorem cellsHeight_le {cells : List (List Expr)} :
    cellsHeight cells ≤ n ↔ ∀ cell ∈ cells, ∀ e ∈ cell, e.height ≤ n := by
  induction cells with
  | nil => simp [cellsHeight]
  | cons cell cells ih => rw [cellsHeight, Nat.max_le, List.forall_mem_cons, ih, listHeight_le]

theorem rowsHeight_le {rows : List (List (List Expr))} :
    rowsHeight rows ≤ n ↔ ∀ row ∈ rows, ∀ cell ∈ row, ∀ e ∈ cell, e.height ≤ n := by
  induction rows with
  | nil => simp [rowsHeight]
  | cons row rows ih => rw [rowsHeight, Nat.max_le, List.forall_mem_cons, ih, cellsHeight_le]

/-- A group is one higher than its body. A matrix is not even that, since its rows are groups. -/
theorem Expr.height_ofGroup_le {opening : List Char} {closing? : Option (List Char)}
    {body : List Expr} (h : listHeight body ≤ n) :
    (ofGroup opening closing? body).height ≤ n + 1 := by
  rcases ofGroup_cases opening closing? body with ⟨closing, rows, rfl, hlooks, heq⟩ | heq <;>
    rw [heq]
  · refine Nat.succ_le_succ (rowsHeight_le.mpr (hlooks.forall_cells fun o c inner hmem ↦ ?_))
    have hgroup : listHeight inner + 1 ≤ n := listHeight_le.mp h _ hmem
    exact listHeight_le.mp (Nat.le_of_succ_le hgroup)
  · exact Nat.succ_le_succ h

theorem height_withScripts_le {base : Expr} {sub? sup? : Option Expr} (hbase : base.height ≤ n)
    (hsub : scriptHeight sub? ≤ n) (hsup : scriptHeight sup? ≤ n) :
    (withScripts base sub? sup?).height ≤ n + 1 := by
  unfold withScripts
  split
  · omega
  · simp only [Expr.height]
    omega

end Bounds

/-! ### The height of what is read -/

/-- The height of a phrase. -/
def Phrase.height : Phrase → Nat
  | .simple e | .token e | .intermediate e | .item e | .entry _ e => e.height
  | .script _ e? => scriptHeight e?
  | .list _ es => listHeight es

/-- The height that a phrase may have at the deepest level. -/
def Phrase.room : Phrase → Nat
  | .simple _ | .script .. => 1
  | .intermediate _ => 2
  | .item _ | .entry .. | .list .. => 3
  | .token _ => 4

namespace Reads

variable {p : Phrase} {s s' : Reading}

/-- **Each level of nesting adds three to the height at most.** -/
theorem height_le (h : Reads p s s') : p.height ≤ 3 * (maxDepth - s.depth) + p.room := by
  induction h with
  | cut | missing | atom | bracket | quoted | raw | noScript | stray | done | stop =>
    simp only [Phrase.height, Phrase.room, Expr.height, scriptHeight, listHeight]
    omega
  | nest deep _ ih =>
    simp only [Phrase.height, Phrase.room] at ih ⊢
    omega
  | closed _ _ _ ih | unclosed _ _ _ ih => exact Expr.height_ofGroup_le ih
  | unary _ _ ih | textual _ _ _ ih =>
    simp only [Phrase.height, Phrase.room, Expr.height] at ih ⊢
    omega
  | script _ _ _ ih => exact ih
  | single _ _ ih =>
    simp only [Phrase.height, Phrase.room] at ih ⊢
    omega
  | entry _ _ _ ih => exact ih
  | binary _ first _ ih₁ ih₂ | fraction first _ _ ih₁ ih₂ =>
    simp only [Phrase.height, Phrase.room, Expr.height, first.depth_eq] at ih₁ ih₂ ⊢
    omega
  | scripts base sub _ _ ih₁ ih₂ ih₃ =>
    rw [sub.depth_eq, base.depth_eq] at ih₃
    rw [base.depth_eq] at ih₂
    exact height_withScripts_le ih₁ ih₂ ih₃
  | late base _ sup _ ih₁ ih₂ ih₃ =>
    rw [sup.depth_eq, base.depth_eq] at ih₃
    rw [base.depth_eq] at ih₂
    exact height_withScripts_le ih₁ ih₃ ih₂
  | more head _ ih₁ ih₂ =>
    rw [head.depth_eq] at ih₂
    exact Nat.max_le.mpr ⟨ih₁, ih₂⟩

end Reads

/-- **Every text is read to its end, to shallow trees.** There is one reading of a text, which is
what the reader does. What it leaves of the text is blank, each expression of a list that it reads
on the way takes something off the text, each simple expression leaves the nesting as it was, and
the expressions are not higher than three for each level of nesting, and three more. -/
theorem parse_uses_up (text : List Char) :
    (∃ s, Reads (.list false (parse text)) (.start text) s) ∧
    (∀ es s, Reads (.list false es) (.start text) s →
      list (simple maxDepth) false text = (es, s.rest) ∧
        (∀ c ∈ s.rest, Text.isBlank c = true) ∧ s.depth = 0) ∧
    (∀ inGroup e s s', Reads (.entry inGroup e) s s' →
      s'.rest <:+ s.rest ∧ s'.rest.length < s.rest.length) ∧
    (∀ e s s', Reads (.simple e) s s' → s'.depth = s.depth) ∧
    ∀ e ∈ parse text, e.height ≤ 3 * maxDepth + 3 := by
  obtain ⟨s, hread⟩ := reads_parse text
  refine ⟨⟨s, hread⟩, fun es s' hread' ↦ ?_, fun inGroup e s₁ s₂ hentry ↦ ?_,
    fun e s₁ s₂ hsimple ↦ hsimple.depth_eq, ?_⟩
  · exact ⟨hread'.list_eq, next?_eq_none_iff.mp hread'.next?_eq_none, hread'.depth_eq⟩
  · exact ⟨hentry.suffix, hentry.length_lt rfl hentry.next?_ne_none⟩
  · exact listHeight_le.mp hread.height_le

end DocumentMath.AsciiMath
