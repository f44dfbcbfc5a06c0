import DocumentMath.Proofs.AsciiMath.Matrices
import DocumentMath.Proofs.AsciiMath.Reading

/-!
# The groups of a text

A text can be read without looking for matrices, so that every group stands in the tree as it is
bracketed (`bracketed`). What is read otherwise is the same tree with matrices in the place of the
closed groups whose bodies look like one, from the inside out (`parse_eq_arrangeAll`). So the
bodies that are looked at are those in which the inner groups have been arranged: a row that is a
matrix itself is no row of another one.

Each closed group of a text becomes a matrix exactly if its body looks like one, and else keeps its
body; and there are no other matrices (`matrix_iff_looksLikeMatrix`).
-/

namespace DocumentMath.AsciiMath

/-! ### Reading without matrices -/

/-- The rest of a group after its opening bracket, whatever its body looks like. -/
def bracketGroup (simple : Reader) (opening : List Char) : Reader := fun cs ↦
  let (body, cs) := list simple true cs
  match next? cs with
  | some (.symbol ⟨_, .rightBracket closing⟩, rest) => (.group opening (some closing) body, rest)
  | _ => (.group opening none body, skipToken cs)

/-- The expression that starts with the next token, with no matrix for a group. -/
def bracketToken (simple : Reader) : Reader := fun cs ↦
  match next? cs with
  | some (.symbol ⟨_, .leftBracket opening⟩, rest) => bracketGroup simple opening rest
  | _ => token simple cs

/-- A simple expression with the given number of levels left and with no matrix in it. -/
def bracketSimple : (levels : Nat) → Reader
  | 0, cs => (.atom (Text.trim cs), [])
  | levels + 1, cs => bracketToken (bracketSimple levels) cs

/-- The items of a whole text, where each group stands as it is bracketed. -/
def bracketed (text : List Char) : List Expr :=
  (list (bracketSimple maxDepth) false text).1

/-! ### Arranging -/

mutual

/-- The expression with matrices in the place of the groups that look like one, from the inside
out. -/
def Expr.arrange : Expr → Expr
  | .atom text => .atom text
  | .verbatim raw => .verbatim raw
  | .group opening closing? body => .ofGroup opening closing? (arrangeAll body)
  | .matrix opening closing rows => .matrix opening closing (arrangeRows rows)
  | .unary command argument => .unary command argument.arrange
  | .textual latex argument => .textual latex argument.arrange
  | .binary command first second => .binary command first.arrange second.arrange
  | .script base sub? sup? => .script base.arrange (arrangeScript? sub?) (arrangeScript? sup?)
  | .fraction numerator denominator => .fraction numerator.arrange denominator.arrange

/-- A script with its matrices. -/
def arrangeScript? : Option Expr → Option Expr
  | none => none
  | some e => some e.arrange

/-- A list with its matrices. -/
def arrangeAll : List Expr → List Expr
  | [] => []
  | e :: es => e.arrange :: arrangeAll es

/-- The rows of a matrix with the matrices in them. -/
def arrangeRows : List (List (List Expr)) → List (List (List Expr))
  | [] => []
  | row :: rows => arrangeCells row :: arrangeRows rows

/-- The cells of a row with the matrices in them. -/
def arrangeCells : List (List Expr) → List (List Expr)
  | [] => []
  | cell :: cells => arrangeAll cell :: arrangeCells cells

end

theorem arrangeAll_eq (es : List Expr) : arrangeAll es = es.map Expr.arrange := by
  induction es with
  | nil => rfl
  | cons e es ih => rw [arrangeAll, ih, List.map_cons]

theorem arrangeCells_eq (cells : List (List Expr)) : arrangeCells cells = cells.map arrangeAll := by
  induction cells with
  | nil => rfl
  | cons cell cells ih => rw [arrangeCells, ih, List.map_cons]

theorem arrangeRows_eq (rows : List (List (List Expr))) :
    arrangeRows rows = rows.map arrangeCells := by
  induction rows with
  | nil => rfl
  | cons row rows ih => rw [arrangeRows, ih, List.map_cons]

theorem arrange_withScripts (base : Expr) (sub? sup? : Option Expr) :
    (withScripts base sub? sup?).arrange =
      withScripts base.arrange (arrangeScript? sub?) (arrangeScript? sup?) := by
  cases sub? <;> cases sup? <;> rfl

/-- A reader of which all that it reads is arranged. -/
def Reader.arrange (reader : Reader) : Reader := fun cs ↦
  ((reader cs).1.arrange, (reader cs).2)

namespace Reader

variable (simple : Reader)

theorem arrange_apply (cs : List Char) :
    simple.arrange cs = ((simple cs).1.arrange, (simple cs).2) :=
  rfl

theorem script?_arrange (role : Role) (cs : List Char) :
    script? simple.arrange role cs =
      (arrangeScript? (script? simple role cs).1, (script? simple role cs).2) := by
  unfold script?
  split <;> rfl

theorem intermediate_arrange : intermediate simple.arrange = (intermediate simple).arrange := by
  funext cs
  rcases hbase : simple cs with ⟨base, cs₁⟩
  rcases hsub : script? simple .sub cs₁ with ⟨sub?, cs₂⟩
  rcases hsup : script? simple .sup cs₂ with ⟨sup?, cs₃⟩
  rcases hlate : script? simple .sub cs₃ with ⟨late?, cs₄⟩
  cases sub? <;> cases sup? <;>
    simp [intermediate, arrange_apply, script?_arrange, arrangeScript?, arrange_withScripts, hbase,
      hsub, hsup, hlate]

theorem item_arrange : item simple.arrange = (item simple).arrange := by
  funext cs
  rcases hwhole : intermediate simple cs with ⟨e, cs₁⟩
  cases hslash : nextIs .divide cs₁ <;>
    simp [item, intermediate_arrange, arrange_apply, Expr.arrange, hwhole, hslash]

theorem items_arrange (inGroup : Bool) (steps : Nat) (cs : List Char) :
    items simple.arrange inGroup steps cs =
      (arrangeAll (items simple inGroup steps cs).1, (items simple inGroup steps cs).2) := by
  induction steps generalizing cs with
  | zero => rfl
  | succ steps ih =>
    unfold items
    rw [item_arrange]
    split
    · rfl
    · split
      · rfl
      · simp [ih, arrangeAll, Expr.arrange]
    · simp [ih, arrangeAll, arrange_apply]

theorem list_arrange (inGroup : Bool) (cs : List Char) :
    list simple.arrange inGroup cs =
      (arrangeAll (list simple inGroup cs).1, (list simple inGroup cs).2) :=
  items_arrange simple inGroup cs.length cs

theorem group_arrange (opening : List Char) :
    group simple.arrange opening = (bracketGroup simple opening).arrange := by
  funext cs
  rw [arrange_apply]
  simp only [group, bracketGroup, list_arrange]
  rcases next? (list simple true cs).2 with _ | ⟨token, rest⟩
  · rfl
  · cases token with
    | symbol s =>
      obtain ⟨input, role⟩ := s
      cases role <;> rfl
    | _ => rfl

/-- A token is read in the same way, unless it opens a group. -/
theorem token_arrange_of_not_leftBracket {cs : List Char}
    (h : ∀ input opening rest, next? cs ≠ some (.symbol ⟨input, .leftBracket opening⟩, rest)) :
    token simple.arrange cs = (token simple).arrange cs := by
  rw [arrange_apply]
  unfold token
  split
  · rfl
  · rfl
  · rfl
  · rfl
  · next s rest hnext =>
    obtain ⟨input, role⟩ := s
    cases role with
    | leftBracket opening => exact absurd hnext (h _ _ _)
    | textual latex =>
      simp only [ofRole]
      split <;> rfl
    | _ => rfl

theorem token_arrange : token simple.arrange = (bracketToken simple).arrange := by
  funext cs
  rw [arrange_apply]
  unfold bracketToken
  split
  · next hnext =>
    rw [token, hnext]
    simp only [ofRole, group_arrange, arrange_apply]
  · next hnot => exact token_arrange_of_not_leftBracket simple hnot

end Reader

/-! ### What is read, arranged -/

theorem simple_eq_arrange (levels : Nat) : simple levels = (bracketSimple levels).arrange := by
  induction levels with
  | zero => rfl
  | succ levels ih =>
    funext cs
    rw [simple, ih, Reader.token_arrange]
    rfl

/-- **What is read is what is bracketed, with matrices in the place of groups.** -/
theorem parse_eq_arrangeAll (text : List Char) : parse text = arrangeAll (bracketed text) := by
  rw [parse, simple_eq_arrange, Reader.list_arrange]
  rfl

/-! ### What occurs in a tree -/

/-- The expressions that an expression is made of. -/
def Expr.parts : Expr → List Expr
  | .atom _ | .verbatim _ => []
  | .group _ _ body => body
  | .matrix _ _ rows => rows.flatten.flatten
  | .unary _ argument | .textual _ argument => [argument]
  | .binary _ first second => [first, second]
  | .script base sub? sup? => base :: (sub?.toList ++ sup?.toList)
  | .fraction numerator denominator => [numerator, denominator]

/-- That an expression stands somewhere in a list, however deep. -/
inductive Occurs (e : Expr) : List Expr → Prop
  | here {es : List Expr} (mem : e ∈ es) : Occurs e es
  | within {e' : Expr} {es : List Expr} (mem : e' ∈ es) (inner : Occurs e e'.parts) : Occurs e es

namespace Occurs

variable {e : Expr} {es fs : List Expr}

theorem not_nil : ¬Occurs e [] := by
  rintro (mem | ⟨mem, -⟩) <;> cases mem

/-- Only the expression itself and those that are made of others matter. -/
theorem mono (h : Occurs e es) (hes : ∀ x ∈ es, x = e ∨ x.parts ≠ [] → x ∈ fs) : Occurs e fs := by
  cases h with
  | here mem => exact .here (hes e mem (.inl rfl))
  | within mem inner =>
    refine .within (hes _ mem (.inr fun hnil ↦ ?_)) inner
    rw [hnil] at inner
    exact not_nil inner

theorem subset (h : Occurs e es) (hes : es ⊆ fs) : Occurs e fs :=
  h.mono fun _ hx _ ↦ hes hx

theorem exists_singleton (h : Occurs e es) : ∃ x ∈ es, Occurs e [x] := by
  cases h with
  | here mem => exact ⟨e, mem, .here List.mem_cons_self⟩
  | within mem inner => exact ⟨_, mem, .within List.mem_cons_self inner⟩

theorem singleton_iff {e' : Expr} : Occurs e [e'] ↔ e = e' ∨ ∃ x ∈ e'.parts, Occurs e [x] := by
  constructor
  · intro h
    cases h with
    | here mem => exact .inl (List.mem_singleton.mp mem)
    | within mem inner =>
      obtain rfl := List.mem_singleton.mp mem
      exact .inr inner.exists_singleton
  · rintro (rfl | ⟨x, hx, h⟩)
    · exact .here List.mem_cons_self
    · exact .within List.mem_cons_self (h.subset (by simpa using hx))

end Occurs

/-! ### Where the groups go -/

/-- That an expression is a comma or a row, and so has no place of its own in a matrix. -/
def Expr.IsCommaOrRow (e : Expr) : Prop :=
  e = comma ∨ ∃ row, IsRow e row

namespace LooksLikeMatrix

variable {body : List Expr} {rows : List (List (List Expr))}

/-- Whatever occurs in the body occurs in the cells, but for the rows and the commas. -/
theorem occurs {e : Expr} (h : LooksLikeMatrix body rows) (he : Occurs e body) :
    Occurs e rows.flatten.flatten ∨ e.IsCommaOrRow := by
  by_cases hcomma : e = Expr.comma
  · exact .inr (.inl hcomma)
  cases he with
  | here mem =>
    refine .inr ((h.comma_or_row mem).imp_right ?_)
    rintro ⟨row, -, hisRow⟩
    exact ⟨row, hisRow⟩
  | within mem inner =>
    obtain rfl | ⟨row, hrow, hisRow⟩ := h.comma_or_row mem
    · exact absurd inner Occurs.not_nil
    · cases hisRow with
      | group _ cut =>
        refine .inl (inner.mono fun x hx hkind ↦ ?_)
        have hne : x ≠ Expr.comma := by
          rintro rfl
          exact hkind.elim (fun heq ↦ hcomma heq.symm) fun hparts ↦ hparts rfl
        obtain ⟨cell, hcell, hx⟩ := cut.exists_cell hx hne
        exact List.mem_flatten_of_mem (List.mem_flatten_of_mem hrow hcell) hx

end LooksLikeMatrix

theorem parts_arrange {e : Expr} (h : ∀ opening closing? body, e ≠ .group opening closing? body) :
    e.arrange.parts = arrangeAll e.parts := by
  cases e with
  | group opening closing? body => exact absurd rfl (h opening closing? body)
  | matrix =>
    simp only [Expr.arrange, Expr.parts, arrangeRows_eq, arrangeAll_eq, List.map_flatten]
    congr 2
    refine List.map_congr_left fun row _ ↦ ?_
    rw [arrangeCells_eq]
    exact List.map_congr_left fun cell _ ↦ arrangeAll_eq cell
  | script base sub? sup? => cases sub? <;> cases sup? <;> rfl
  | _ => rfl

theorem Occurs.parts_ofGroup {e : Expr} {opening : List Char} {closing? : Option (List Char)}
    {body : List Expr} (h : Occurs e body) :
    Occurs e (Expr.ofGroup opening closing? body).parts ∨ e.IsCommaOrRow := by
  rcases Expr.ofGroup_cases opening closing? body with ⟨_, rows, -, hlooks, heq⟩ | heq <;> rw [heq]
  · exact hlooks.occurs h
  · exact .inl h

/-- Whatever occurs in a tree occurs in the arranged one when it has been arranged itself, unless it
is a comma or a row, which a matrix takes up. -/
theorem Occurs.arrange {e : Expr} {es : List Expr} (h : Occurs e es) :
    Occurs e.arrange (arrangeAll es) ∨ e.arrange.IsCommaOrRow := by
  induction h with
  | here mem =>
    rw [arrangeAll_eq]
    exact .inl (.here (List.mem_map_of_mem mem))
  | @within e' es mem _ ih =>
    rw [arrangeAll_eq es]
    rcases ih with hin | hgone
    · by_cases hgroup : ∃ opening closing? body, e' = .group opening closing? body
      · obtain ⟨opening, closing?, body, rfl⟩ := hgroup
        exact hin.parts_ofGroup.imp_left (.within (List.mem_map_of_mem mem))
      · rw [← parts_arrange fun opening closing? body heq ↦ hgroup ⟨opening, closing?, body, heq⟩]
          at hin
        exact .inl (.within (List.mem_map_of_mem mem) hin)
    · exact .inr hgone

/-! ### No other matrices -/

/-- That every matrix which occurs in an expression has been made of a body that looks like it. -/
def Expr.HasTrueMatrices (e : Expr) : Prop :=
  ∀ ⦃opening closing rows⦄, Occurs (.matrix opening closing rows) [e] →
    ∃ body, LooksLikeMatrix body rows

namespace Expr.HasTrueMatrices

variable {e : Expr}

theorem parts (h : e.HasTrueMatrices) : ∀ x ∈ e.parts, x.HasTrueMatrices :=
  fun x hx _ _ _ hin ↦ h (Occurs.singleton_iff.mpr (.inr ⟨x, hx, hin⟩))

theorem of_parts (hparts : ∀ x ∈ e.parts, x.HasTrueMatrices)
    (h : ∀ opening closing rows, e = .matrix opening closing rows →
      ∃ body, LooksLikeMatrix body rows) : e.HasTrueMatrices := by
  intro opening closing rows hin
  rcases Occurs.singleton_iff.mp hin with heq | ⟨x, hx, hin⟩
  · exact h _ _ _ heq.symm
  · exact hparts x hx hin

theorem ofGroup {opening : List Char} {closing? : Option (List Char)} {body : List Expr}
    (h : ∀ x ∈ body, x.HasTrueMatrices) : (ofGroup opening closing? body).HasTrueMatrices := by
  rcases ofGroup_cases opening closing? body with ⟨closing, rows, -, hlooks, heq⟩ | heq <;> rw [heq]
  · refine of_parts (fun x hx ↦ ?_) ?_
    · obtain ⟨cell, hcell, hx⟩ := List.mem_flatten.mp hx
      obtain ⟨row, hrow, hcell⟩ := List.mem_flatten.mp hcell
      exact hlooks.forall_cells (fun _ _ _ hmem ↦ (h _ hmem).parts) row hrow cell hcell x hx
    · rintro _ _ _ ⟨⟩
      exact ⟨body, hlooks⟩
  · exact of_parts h (by simp)

end Expr.HasTrueMatrices

/-- Matrices come from nothing but groups. -/
theorem readingRule_hasTrueMatrices : ReadingRule (fun _ ↦ True) Expr.HasTrueMatrices where
  suffix _ _ := trivial
  atom _ _ := .of_parts (List.forall_mem_nil _) (by simp)
  verbatim _ _ := .of_parts (List.forall_mem_nil _) (by simp)
  constant _ := .of_parts (List.forall_mem_nil _) (by simp)
  rightBracket _ := .of_parts (List.forall_mem_nil _) (by simp)
  sign _ _ := .of_parts (List.forall_mem_nil _) (by simp)
  ofGroup _ _ := .ofGroup
  unary _ h := .of_parts (by simpa [Expr.parts] using h) (by simp)
  textual _ h := .of_parts (by simpa [Expr.parts] using h) (by simp)
  binary _ h₁ h₂ := .of_parts (by simpa [Expr.parts] using ⟨h₁, h₂⟩) (by simp)
  script h hsub hsup :=
    .of_parts (by simpa [Expr.parts, or_imp, forall_and] using ⟨h, hsub, hsup⟩) (by simp)
  fraction h₁ h₂ := .of_parts (by simpa [Expr.parts] using ⟨h₁, h₂⟩) (by simp)

/-- **A closed group is a matrix exactly if it looks like one.** What is read of a text is what is
bracketed in it, arranged. A closed group of the text is arranged to a matrix with certain rows, and
this matrix occurs in what is read, exactly if the arranged body looks like these rows; else the
group keeps the arranged body. All matrices in what is read have at least two rows, which are
equally long, and no commas in their cells. -/
theorem matrix_iff_looksLikeMatrix (text : List Char) :
    parse text = arrangeAll (bracketed text) ∧
      (∀ opening closing body, Occurs (.group opening (some closing) body) (bracketed text) →
        (∀ rows,
          (Expr.group opening (some closing) body).arrange = .matrix opening closing rows ↔
            LooksLikeMatrix (arrangeAll body) rows) ∧
        (∀ rows, LooksLikeMatrix (arrangeAll body) rows →
          Occurs (.matrix opening closing rows) (parse text)) ∧
        ((∀ rows, ¬LooksLikeMatrix (arrangeAll body) rows) →
          (Expr.group opening (some closing) body).arrange =
            .group opening (some closing) (arrangeAll body))) ∧
      ∀ opening closing rows, Occurs (.matrix opening closing rows) (parse text) →
        2 ≤ rows.length ∧ (∃ columns, ∀ row ∈ rows, row.length = columns) ∧
          ∀ row ∈ rows, ∀ cell ∈ row, Expr.comma ∉ cell := by
  refine ⟨parse_eq_arrangeAll text, fun opening closing body hgroup ↦ ?_,
    fun opening closing rows hmatrix ↦ ?_⟩
  · refine ⟨fun rows ↦ Expr.ofGroup_eq_matrix_iff, fun rows hrows ↦ ?_, Expr.ofGroup_eq_group⟩
    have hmatrix : (Expr.group opening (some closing) body).arrange = .matrix opening closing rows :=
      Expr.ofGroup_eq_matrix_iff.mpr hrows
    rw [parse_eq_arrangeAll, ← hmatrix]
    refine hgroup.arrange.resolve_right ?_
    rw [hmatrix]
    -- a matrix is no row of another one
    rintro (heq | ⟨row, hrow⟩)
    · cases heq
    · cases hrow
  · obtain ⟨e, he, hin⟩ := hmatrix.exists_singleton
    obtain ⟨body, hlooks⟩ := readingRule_hasTrueMatrices.parse trivial e he hin
    exact ⟨hlooks.two_le, hlooks.columns, fun row hrow cell hcell ↦
      hlooks.comma_not_mem hrow hcell⟩

end DocumentMath.AsciiMath
