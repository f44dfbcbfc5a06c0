import DocumentMath.AsciiMath.Latex
import DocumentMath.Proofs.AsciiMath.Matrices
import DocumentMath.Proofs.AsciiMath.Reading

/-!
# AsciiMath is written as nested LaTeX

Text of the source that is kept as it is written may contain any brackets. All else is read to plain
expressions, however the brackets of the source are paired and whichever arguments are missing, so
that the LaTeX of a text that keeps none of its source is well nested (`isNested_marks_toLatex`).

What stands too deep is kept as well, but the reader does not tell it from other atoms. So the
proof follows a second reader that differs from the first at the deepest level only, where it reads
a verbatim text (`simpleOr`). As long as no such text occurs in what the second reader reads, both
read the same (`Agrees`); each level of the grammar keeps this.
-/

namespace DocumentMath.AsciiMath

/-! ### Text of the source -/

mutual

/-- Whether text of the source is kept in an expression as it is written. -/
def Expr.copies : Expr → Bool
  | .atom _ => false
  | .verbatim _ => true
  | .group _ _ body => anyCopies body
  | .matrix _ _ rows => rowsCopy rows
  | .unary _ argument => argument.copies
  | .textual _ argument => argument.copies
  | .binary _ first second => first.copies || second.copies
  | .script base sub? sup? => base.copies || scriptCopies sub? || scriptCopies sup?
  | .fraction numerator denominator => numerator.copies || denominator.copies

/-- Whether text of the source is kept in a script. -/
def scriptCopies : Option Expr → Bool
  | none => false
  | some e => e.copies

/-- Whether text of the source is kept in a list. -/
def anyCopies : List Expr → Bool
  | [] => false
  | e :: es => e.copies || anyCopies es

/-- Whether text of the source is kept in the rows of a matrix. -/
def rowsCopy : List (List (List Expr)) → Bool
  | [] => false
  | row :: rows => cellsCopy row || rowsCopy rows

/-- Whether text of the source is kept in the cells of a row. -/
def cellsCopy : List (List Expr) → Bool
  | [] => false
  | cell :: cells => anyCopies cell || cellsCopy cells

end

theorem scriptCopies_eq_false {e? : Option Expr} :
    scriptCopies e? = false ↔ ∀ e ∈ e?, e.copies = false := by
  cases e? with
  | none => simp [scriptCopies]
  | some e => simp [scriptCopies]

theorem anyCopies_eq_false {es : List Expr} :
    anyCopies es = false ↔ ∀ e ∈ es, e.copies = false := by
  induction es with
  | nil => simp [anyCopies]
  | cons e es ih => rw [anyCopies, Bool.or_eq_false_iff, List.forall_mem_cons, ih]

theorem cellsCopy_eq_false {cells : List (List Expr)} :
    cellsCopy cells = false ↔ ∀ cell ∈ cells, ∀ e ∈ cell, e.copies = false := by
  induction cells with
  | nil => simp [cellsCopy]
  | cons cell cells ih =>
    rw [cellsCopy, Bool.or_eq_false_iff, List.forall_mem_cons, ih, anyCopies_eq_false]

theorem rowsCopy_eq_false {rows : List (List (List Expr))} :
    rowsCopy rows = false ↔ ∀ row ∈ rows, ∀ cell ∈ row, ∀ e ∈ cell, e.copies = false := by
  induction rows with
  | nil => simp [rowsCopy]
  | cons row rows ih =>
    rw [rowsCopy, Bool.or_eq_false_iff, List.forall_mem_cons, ih, cellsCopy_eq_false]

/-- Simple expressions, where what stands deeper than the given number of levels is read by
`deepest`. -/
def simpleOr (deepest : Reader) : (levels : Nat) → Reader
  | 0, cs => deepest cs
  | levels + 1, cs => token (simpleOr deepest levels) cs

/-- A reader that keeps all of a text as it is written. -/
def verbatim : Reader := fun cs ↦ (.verbatim (Text.trim cs), [])

/-- Whether some of a text is kept as it is written when it is read: a text in double quotes, the
raw argument of a text command, or what stands deeper than `maxDepth`. -/
def copiesSource (text : List Char) : Bool :=
  anyCopies (list (simpleOr verbatim maxDepth) false text).1

/-! ### Matrices -/

section Matrices

variable {opening : List Char} {closing? : Option (List Char)} {body : List Expr}

/-- The expression for a group keeps whatever text of the source its body keeps. -/
theorem Expr.copies_of_ofGroup (h : (ofGroup opening closing? body).copies = false) :
    ∀ e ∈ body, e.copies = false := by
  rcases ofGroup_cases opening closing? body with ⟨closing, rows, -, hlooks, heq⟩ | heq <;>
    rw [heq, Expr.copies] at h
  · rw [rowsCopy_eq_false] at h
    intro e he
    rcases hlooks.comma_or_row he with rfl | ⟨row, hrow, hisRow⟩
    · rfl
    · cases hisRow with
      | group _ cut =>
        rw [Expr.copies, anyCopies_eq_false]
        intro x hx
        by_cases hcomma : x = comma
        · exact hcomma ▸ rfl
        · obtain ⟨cell, hcell, hx⟩ := cut.exists_cell hx hcomma
          exact h _ hrow cell hcell x hx
  · rwa [anyCopies_eq_false] at h

theorem Expr.isPlain_ofGroup (ho : IsDelimiter (delimiter opening))
    (hc : IsDelimiter (delimiter (closing?.getD []))) (h : ∀ e ∈ body, e.IsPlain) :
    (ofGroup opening closing? body).IsPlain := by
  rcases ofGroup_cases opening closing? body with ⟨closing, rows, rfl, hlooks, heq⟩ | heq <;>
    rw [heq]
  · refine .matrix ho hc (hlooks.forall_cells fun o c inner hmem ↦ ?_)
    cases h _ hmem with
    | group _ _ hinner => exact hinner
  · exact .group ho hc h

end Matrices

/-! ### Reading -/

/-- Whatever `marked` reads without keeping text of the source, `simple` reads in the same way, and
it is plain. -/
def Agrees (marked simple : Reader) : Prop :=
  ∀ ⦃cs e rest⦄, marked cs = (e, rest) → e.copies = false → simple cs = (e, rest) ∧ e.IsPlain

theorem copies_withScripts {base : Expr} {sub? sup? : Option Expr}
    (h : (withScripts base sub? sup?).copies = false) :
    base.copies = false ∧ (∀ e ∈ sub?, e.copies = false) ∧ ∀ e ∈ sup?, e.copies = false := by
  unfold withScripts at h
  split at h
  · simp [h]
  · rwa [Expr.copies, Bool.or_eq_false_iff, Bool.or_eq_false_iff, scriptCopies_eq_false,
      scriptCopies_eq_false, and_assoc] at h

theorem isPlain_withScripts {base : Expr} {sub? sup? : Option Expr} (hbase : base.IsPlain)
    (hsub : ∀ e ∈ sub?, e.IsPlain) (hsup : ∀ e ∈ sup?, e.IsPlain) :
    (withScripts base sub? sup?).IsPlain := by
  unfold withScripts
  split
  · exact hbase
  · exact .script hbase hsub hsup

section Tokens

variable {cs rest : List Char}

/-- A symbol that is the next token of a text is sound. -/
theorem isSound_of_next? {s : Symbol} (h : next? cs = some (.symbol s, rest)) :
    s.role.IsSound :=
  isSound_symbols s (mem_symbols_of_next? h)

theorem isBalanced_of_next?_number {digits : List Char}
    (h : next? cs = some (.number digits, rest)) : IsBalanced digits := by
  obtain ⟨c, cs', -, ⟨⟩, -⟩ := isTokenAt_of_next? h
  exact isBalanced_number _

theorem isBalanced_of_next?_character {c : Char} (h : next? cs = some (.character c, rest)) :
    IsBalanced [c] := by
  obtain ⟨c', cs', -, htoken, -⟩ := isTokenAt_of_next? h
  cases htoken with
  | character none => exact isBalanced_character none

end Tokens

namespace Agrees

variable {marked simple : Reader} {cs rest : List Char}

theorem script? (h : Agrees marked simple) {role : Role} {e? : Option Expr}
    (hread : script? marked role cs = (e?, rest)) (hcopies : ∀ e ∈ e?, e.copies = false) :
    AsciiMath.script? simple role cs = (e?, rest) ∧ ∀ e ∈ e?, e.IsPlain := by
  unfold AsciiMath.script? at hread ⊢
  split at hread
  · next hnext =>
    rcases hmarked : marked (skipToken cs) with ⟨e, rest'⟩
    rw [hmarked] at hread
    obtain ⟨rfl, rfl⟩ := Prod.mk.inj hread
    obtain ⟨heq, hplain⟩ := h hmarked (hcopies e rfl)
    rw [if_pos hnext, heq]
    exact ⟨rfl, fun e' he' ↦ Option.some.inj he' ▸ hplain⟩
  · next hnext =>
    obtain ⟨rfl, rfl⟩ := Prod.mk.inj hread
    rw [if_neg hnext]
    exact ⟨rfl, by simp⟩

theorem intermediate (h : Agrees marked simple) :
    Agrees (intermediate marked) (intermediate simple) := by
  intro cs e rest hread hcopies
  rcases hbase : marked cs with ⟨base, cs₁⟩
  rcases hsub : AsciiMath.script? marked .sub cs₁ with ⟨sub?, cs₂⟩
  rcases hsup : AsciiMath.script? marked .sup cs₂ with ⟨sup?, cs₃⟩
  simp only [AsciiMath.intermediate, hbase, hsub, hsup] at hread
  split at hread
  · -- the subscript may come second
    rcases hlate : AsciiMath.script? marked .sub cs₃ with ⟨late?, cs₄⟩
    rw [hlate] at hread
    obtain ⟨rfl, rfl⟩ := Prod.mk.inj hread
    obtain ⟨hcopiesBase, hcopiesLate, hcopiesSup⟩ := copies_withScripts hcopies
    obtain ⟨hbase', hplainBase⟩ := h hbase hcopiesBase
    obtain ⟨hsub', -⟩ := h.script? hsub (by simp)
    obtain ⟨hsup', hplainSup⟩ := h.script? hsup hcopiesSup
    obtain ⟨hlate', hplainLate⟩ := h.script? hlate hcopiesLate
    simp only [AsciiMath.intermediate, hbase', hsub', hsup', hlate']
    exact ⟨trivial, isPlain_withScripts hplainBase hplainLate hplainSup⟩
  · next hnot =>
    obtain ⟨rfl, rfl⟩ := Prod.mk.inj hread
    obtain ⟨hcopiesBase, hcopiesSub, hcopiesSup⟩ := copies_withScripts hcopies
    obtain ⟨hbase', hplainBase⟩ := h hbase hcopiesBase
    obtain ⟨hsub', hplainSub⟩ := h.script? hsub hcopiesSub
    obtain ⟨hsup', hplainSup⟩ := h.script? hsup hcopiesSup
    simp only [AsciiMath.intermediate, hbase', hsub', hsup']
    exact ⟨trivial, isPlain_withScripts hplainBase hplainSub hplainSup⟩

theorem item (h : Agrees marked simple) : Agrees (item marked) (item simple) := by
  intro cs e rest hread hcopies
  rcases hfirst : AsciiMath.intermediate marked cs with ⟨first, cs₁⟩
  simp only [AsciiMath.item, hfirst] at hread
  split at hread
  · next hnext =>
    rcases hsecond : AsciiMath.intermediate marked (skipToken cs₁) with ⟨second, cs₂⟩
    rw [hsecond] at hread
    obtain ⟨rfl, rfl⟩ := Prod.mk.inj hread
    rw [Expr.copies, Bool.or_eq_false_iff] at hcopies
    obtain ⟨hfirst', hplainFirst⟩ := h.intermediate hfirst hcopies.1
    obtain ⟨hsecond', hplainSecond⟩ := h.intermediate hsecond hcopies.2
    simp only [AsciiMath.item, hfirst', hnext, if_true, hsecond']
    exact ⟨trivial, .fraction hplainFirst hplainSecond⟩
  · next hnext =>
    obtain ⟨rfl, rfl⟩ := Prod.mk.inj hread
    obtain ⟨hfirst', hplainFirst⟩ := h.intermediate hfirst hcopies
    simp only [AsciiMath.item, hfirst', if_neg hnext]
    exact ⟨trivial, hplainFirst⟩

theorem items (h : Agrees marked simple) {inGroup : Bool} {steps : Nat} {es : List Expr}
    (hread : items marked inGroup steps cs = (es, rest)) (hcopies : ∀ e ∈ es, e.copies = false) :
    AsciiMath.items simple inGroup steps cs = (es, rest) ∧ ∀ e ∈ es, e.IsPlain := by
  induction steps generalizing cs es rest with
  | zero =>
    obtain ⟨rfl, rfl⟩ := Prod.mk.inj hread
    exact ⟨rfl, List.forall_mem_nil _⟩
  | succ steps ih =>
    unfold AsciiMath.items at hread ⊢
    split at hread
    · obtain ⟨rfl, rfl⟩ := Prod.mk.inj hread
      exact ⟨rfl, List.forall_mem_nil _⟩
    · next input latex cs₁ hnext =>
      split at hread
      · next hin =>
        obtain ⟨rfl, rfl⟩ := Prod.mk.inj hread
        exact ⟨if_pos hin, List.forall_mem_nil _⟩
      · next hin =>
        rcases hmore : AsciiMath.items marked inGroup steps cs₁ with ⟨more, cs₂⟩
        rw [hmore] at hread
        obtain ⟨rfl, rfl⟩ := Prod.mk.inj hread
        rw [List.forall_mem_cons] at hcopies
        obtain ⟨hmore', hplain⟩ := ih hmore hcopies.2
        rw [hmore', if_neg hin]
        refine ⟨rfl, List.forall_mem_cons.mpr ⟨?_, hplain⟩⟩
        cases isSound_of_next? hnext with
        | rightBracket _ hatom => exact .atom hatom
    · next hnext hnot =>
      rcases hfirst : AsciiMath.item marked cs with ⟨first, cs₁⟩
      rcases hmore : AsciiMath.items marked inGroup steps cs₁ with ⟨more, cs₂⟩
      simp only [hfirst, hmore] at hread
      obtain ⟨rfl, rfl⟩ := Prod.mk.inj hread
      rw [List.forall_mem_cons] at hcopies
      obtain ⟨hfirst', hplainFirst⟩ := h.item hfirst hcopies.1
      obtain ⟨hmore', hplain⟩ := ih hmore hcopies.2
      simp only [hfirst', hmore']
      exact ⟨trivial, List.forall_mem_cons.mpr ⟨hplainFirst, hplain⟩⟩

theorem list (h : Agrees marked simple) {inGroup : Bool} {es : List Expr}
    (hread : list marked inGroup cs = (es, rest)) (hcopies : ∀ e ∈ es, e.copies = false) :
    AsciiMath.list simple inGroup cs = (es, rest) ∧ ∀ e ∈ es, e.IsPlain :=
  h.items hread hcopies

theorem group (h : Agrees marked simple) {opening : List Char}
    (ho : IsDelimiter (delimiter opening)) :
    Agrees (group marked opening) (group simple opening) := by
  intro cs e rest hread hcopies
  rcases hbody : AsciiMath.list marked true cs with ⟨body, cs₁⟩
  simp only [AsciiMath.group, hbody] at hread
  split at hread
  · next input closing cs₂ hnext =>
    obtain ⟨rfl, rfl⟩ := Prod.mk.inj hread
    obtain ⟨hbody', hplain⟩ := h.list hbody (Expr.copies_of_ofGroup hcopies)
    simp only [AsciiMath.group, hbody', hnext]
    refine ⟨trivial, Expr.isPlain_ofGroup ho ?_ hplain⟩
    cases isSound_of_next? hnext with
    | rightBracket hclosing _ => exact hclosing
  · next hnot =>
    obtain ⟨rfl, rfl⟩ := Prod.mk.inj hread
    obtain ⟨hbody', hplain⟩ := h.list hbody (Expr.copies_of_ofGroup hcopies)
    simp only [AsciiMath.group, hbody']
    -- an invisible bracket is written as a point
    exact ⟨trivial, Expr.isPlain_ofGroup ho (isDelimiter_of_looksDelimiting (by decide)) hplain⟩

theorem ofRole (h : Agrees marked simple) {role : Role} (hrole : role.IsSound) :
    Agrees (ofRole marked role) (ofRole simple role) := by
  intro cs e rest hread hcopies
  cases hrole with
  | constant hlatex =>
    obtain ⟨rfl, rfl⟩ := Prod.mk.inj hread
    exact ⟨rfl, .atom hlatex⟩
  | leftBracket ho => exact h.group ho hread hcopies
  | rightBracket _ hatom =>
    obtain ⟨rfl, rfl⟩ := Prod.mk.inj hread
    exact ⟨rfl, .atom hatom⟩
  | unary hcommand =>
    rcases hargument : marked cs with ⟨argument, cs₁⟩
    simp only [AsciiMath.ofRole, hargument] at hread
    obtain ⟨rfl, rfl⟩ := Prod.mk.inj hread
    obtain ⟨hargument', hplain⟩ := h hargument hcopies
    simp only [AsciiMath.ofRole, hargument']
    exact ⟨trivial, .unary hcommand hplain⟩
  | textual hlatex =>
    simp only [AsciiMath.ofRole] at hread ⊢
    split at hread
    · -- the argument would be kept as it is written
      obtain ⟨rfl, rfl⟩ := Prod.mk.inj hread
      cases hcopies
    · next hraw =>
      rcases hargument : marked cs with ⟨argument, cs₁⟩
      simp only [hargument] at hread
      obtain ⟨rfl, rfl⟩ := Prod.mk.inj hread
      obtain ⟨hargument', hplain⟩ := h hargument hcopies
      simp only [hargument']
      exact ⟨trivial, .textual hlatex hplain⟩
  | binary hcommand =>
    rcases hfirst : marked cs with ⟨first, cs₁⟩
    rcases hsecond : marked cs₁ with ⟨second, cs₂⟩
    simp only [AsciiMath.ofRole, hfirst, hsecond] at hread
    obtain ⟨rfl, rfl⟩ := Prod.mk.inj hread
    rw [Expr.copies, Bool.or_eq_false_iff] at hcopies
    obtain ⟨hfirst', hplainFirst⟩ := h hfirst hcopies.1
    obtain ⟨hsecond', hplainSecond⟩ := h hsecond hcopies.2
    simp only [AsciiMath.ofRole, hfirst', hsecond']
    exact ⟨trivial, .binary hcommand hplainFirst hplainSecond⟩
  | sub =>
    obtain ⟨rfl, rfl⟩ := Prod.mk.inj hread
    exact ⟨rfl, .atom (isBalanced_of_looksBalanced (by decide))⟩
  | sup =>
    obtain ⟨rfl, rfl⟩ := Prod.mk.inj hread
    exact ⟨rfl, .atom (isBalanced_of_looksBalanced (by decide))⟩
  | divide =>
    obtain ⟨rfl, rfl⟩ := Prod.mk.inj hread
    exact ⟨rfl, .atom (isBalanced_of_looksBalanced (by decide))⟩

theorem token (h : Agrees marked simple) : Agrees (token marked) (token simple) := by
  intro cs e rest hread hcopies
  unfold AsciiMath.token at hread ⊢
  split at hread
  · obtain ⟨rfl, rfl⟩ := Prod.mk.inj hread
    exact ⟨rfl, .atom .nil⟩
  · -- a quoted text would be kept as it is written
    obtain ⟨rfl, rfl⟩ := Prod.mk.inj hread
    cases hcopies
  · next digits cs₁ hnext =>
    obtain ⟨rfl, rfl⟩ := Prod.mk.inj hread
    exact ⟨rfl, .atom (isBalanced_of_next?_number hnext)⟩
  · next c cs₁ hnext =>
    obtain ⟨rfl, rfl⟩ := Prod.mk.inj hread
    exact ⟨rfl, .atom (isBalanced_of_next?_character hnext)⟩
  · next s cs₁ hnext => exact h.ofRole (isSound_of_next? hnext) hread hcopies

/-- Above the deepest level, which is never left without keeping text of the source, both readers
read the same. -/
theorem simpleOr (levels : Nat) :
    Agrees (AsciiMath.simpleOr verbatim levels) (AsciiMath.simple levels) := by
  induction levels with
  | zero =>
    intro cs e rest hread hcopies
    obtain ⟨rfl, rfl⟩ := Prod.mk.inj hread
    cases hcopies
  | succ levels ih => exact ih.token

end Agrees

/-- What is read of a text that keeps none of its source is plain. -/
theorem isPlain_parse {text : List Char} (h : copiesSource text = false) :
    ∀ e ∈ parse text, e.IsPlain := by
  rcases hread : list (simpleOr verbatim maxDepth) false text with ⟨es, rest⟩
  rw [copiesSource, hread, anyCopies_eq_false] at h
  obtain ⟨hparse, hplain⟩ := (Agrees.simpleOr maxDepth).list hread h
  rw [parse, hparse]
  exact hplain

/-- **AsciiMath that keeps none of its source as it is written becomes well-nested LaTeX.** Every
grouping brace and every `\left` and `\right` has its partner, and no two such pairs overlap,
whatever the brackets of the text are and whichever arguments are missing. -/
theorem isNested_marks_toLatex (text : List Char) (h : copiesSource text = false) :
    IsNested (marks (toLatex text)) := by
  have hadds : Adds [] (toLatex text) :=
    adds_emitAll (fun e he ↦ (isPlain_parse h e he).emits) .nil
  exact hadds.isBalanced.nested

/-- Brackets that do not match, a matrix in a script in a fraction, and commands without their
arguments. -/
theorem isNested_marks_toLatex_unclosed :
    copiesSource "frac(x_([[a, b], [c, d]))^2) /) sqrt( left:\x7d floor _ root".toList = false ∧
      IsNested (marks
        (toLatex "frac(x_([[a, b], [c, d]))^2) /) sqrt( left:\x7d floor _ root".toList)) :=
  have hcopies :
      copiesSource "frac(x_([[a, b], [c, d]))^2) /) sqrt( left:\x7d floor _ root".toList
        = false := by
    decide +kernel
  ⟨hcopies, isNested_marks_toLatex _ hcopies⟩

end DocumentMath.AsciiMath
