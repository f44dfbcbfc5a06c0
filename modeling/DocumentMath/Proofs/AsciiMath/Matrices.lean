import DocumentMath.AsciiMath.Expr
import Mathlib.Data.List.Forall2

/-!
# What a matrix looks like

The body of a group looks like a matrix if it is made of rows with single commas between them, at
least two, and all rows have the same number of cells (`LooksLikeMatrix`). A row is a closed group
in parentheses or square brackets, and its cells are what its body is cut into at the commas
(`IsCutAtCommas`), so that a cell may be empty, and a body without commas is one cell.

The rows of a body are found one by one, with a row and a comma in turn. They are found exactly if
the body looks like them (`Expr.matrixRows?_eq_some_iff`); so there is at most one way to see a
matrix in a body.
-/

namespace DocumentMath.AsciiMath

/-! ### Lists with separators -/

section Lists

variable {α β : Type} {a separator : α} {as : List α}

theorem eq_or_mem_of_mem_intersperse (h : a ∈ as.intersperse separator) :
    a = separator ∨ a ∈ as := by
  fun_induction List.intersperse separator as with
  | case1 => exact .inr h
  | case2 => exact .inr h
  | case3 b c bs ih =>
    rcases List.mem_cons.mp h with rfl | h
    · exact .inr List.mem_cons_self
    · rcases List.mem_cons.mp h with rfl | h
      · exact .inl rfl
      · exact (ih h).imp_right (List.mem_cons_of_mem _)

theorem mem_intersperse_of_mem (h : a ∈ as) : a ∈ as.intersperse separator := by
  fun_induction List.intersperse separator as with
  | case1 => exact h
  | case2 => exact h
  | case3 b c bs ih =>
    rcases List.mem_cons.mp h with rfl | h
    · exact List.mem_cons_self
    · exact List.mem_cons_of_mem _ (List.mem_cons_of_mem _ (ih h))

theorem exists_of_forall₂ {R : α → β → Prop} {bs : List β} (h : List.Forall₂ R as bs)
    (ha : a ∈ as) : ∃ b ∈ bs, R a b := by
  induction h with
  | nil => cases ha
  | cons hab _ ih =>
    rcases List.mem_cons.mp ha with rfl | ha
    · exact ⟨_, List.mem_cons_self, hab⟩
    · obtain ⟨b, hb, hR⟩ := ih ha
      exact ⟨b, List.mem_cons_of_mem _ hb, hR⟩

end Lists

/-! ### Cells -/

/-- The comma between cells and between rows. -/
def Expr.comma : Expr :=
  .atom [',']

theorem Expr.isComma_iff {e : Expr} : e.isComma = true ↔ e = comma := by
  constructor
  · intro h
    unfold isComma at h
    split at h
    · rw [beq_iff_eq.mp h, comma]
    · cases h
  · rintro rfl
    rfl

/-- That a list is cut at its commas: the cells are free of commas, and one comma stands between
each cell and the next. -/
structure IsCutAtCommas (es : List Expr) (cells : List (List Expr)) : Prop where
  nonempty : cells ≠ []
  join : [Expr.comma].intercalate cells = es
  free : ∀ cell ∈ cells, Expr.comma ∉ cell

namespace Expr

theorem cells_ne_nil (es : List Expr) : cells es ≠ [] := by
  induction es with
  | nil => exact List.cons_ne_nil _ _
  | cons e es ih =>
    rw [cells]
    split
    · exact List.cons_ne_nil _ _
    · rw [ne_eq, List.modifyHead_eq_nil_iff]
      exact ih

theorem cells_append_comma (es fs : List Expr) :
    cells (es ++ comma :: fs) = cells es ++ cells fs := by
  induction es with
  | nil => rfl
  | cons e es ih =>
    rw [List.cons_append, cells, cells, ih]
    split
    · rfl
    · obtain ⟨cell, rest, hcells⟩ := List.exists_cons_of_ne_nil (cells_ne_nil es)
      rw [hcells]
      rfl

theorem cells_of_comma_not_mem {es : List Expr} (h : comma ∉ es) : cells es = [es] := by
  induction es with
  | nil => rfl
  | cons e es ih =>
    rw [List.mem_cons, not_or] at h
    rw [cells, if_neg fun hcomma ↦ h.1 (isComma_iff.mp hcomma).symm, ih h.2]
    rfl

theorem isCutAtCommas_cells (es : List Expr) : IsCutAtCommas es (cells es) := by
  induction es with
  | nil => exact ⟨List.cons_ne_nil _ _, rfl, by simp [cells]⟩
  | cons e es ih =>
    obtain ⟨cell, rest, hcells⟩ := List.exists_cons_of_ne_nil (cells_ne_nil es)
    obtain ⟨-, hjoin, hfree⟩ := ih
    rw [hcells] at hjoin hfree
    rw [cells, hcells]
    split
    · next hcomma =>
      obtain rfl := isComma_iff.mp hcomma
      refine ⟨List.cons_ne_nil _ _, ?_, List.forall_mem_cons.mpr ⟨List.not_mem_nil, hfree⟩⟩
      rw [List.intercalate_cons_cons, hjoin]
      rfl
    · next hcomma =>
      have hne : comma ≠ e := fun heq ↦ hcomma (isComma_iff.mpr heq.symm)
      rw [List.forall_mem_cons] at hfree
      refine ⟨List.cons_ne_nil _ _, ?_, List.forall_mem_cons.mpr ⟨?_, hfree.2⟩⟩
      · rw [← hjoin]
        cases rest <;> simp [List.intercalate_cons_cons]
      · rw [List.mem_cons, not_or]
        exact ⟨hne, hfree.1⟩

/-- There is one way to cut a list at its commas. -/
theorem isCutAtCommas_iff {es : List Expr} {cs : List (List Expr)} :
    IsCutAtCommas es cs ↔ cells es = cs := by
  constructor
  · rintro ⟨hne, rfl, hfree⟩
    induction cs with
    | nil => exact absurd rfl hne
    | cons cell rest ih =>
      rw [List.forall_mem_cons] at hfree
      cases rest with
      | nil => rw [List.intercalate_singleton, cells_of_comma_not_mem hfree.1]
      | cons next rest =>
        rw [List.intercalate_cons_cons, List.append_assoc, List.singleton_append,
          cells_append_comma, cells_of_comma_not_mem hfree.1,
          ih (List.cons_ne_nil _ _) hfree.2]
        rfl
  · rintro rfl
    exact isCutAtCommas_cells es

end Expr

namespace IsCutAtCommas

variable {es : List Expr} {cells : List (List Expr)}

theorem subset {cell : List Expr} (h : IsCutAtCommas es cells) (hcell : cell ∈ cells) :
    cell ⊆ es := by
  intro e he
  rw [← h.join]
  exact List.mem_flatten_of_mem (mem_intersperse_of_mem hcell) he

/-- The cells hold all of the list but the commas. -/
theorem exists_cell {e : Expr} (h : IsCutAtCommas es cells) (he : e ∈ es)
    (hcomma : e ≠ Expr.comma) : ∃ cell ∈ cells, e ∈ cell := by
  rw [← h.join] at he
  obtain ⟨part, hpart, he⟩ := List.mem_flatten.mp he
  obtain rfl | hcell := eq_or_mem_of_mem_intersperse hpart
  · exact absurd (List.mem_singleton.mp he) hcomma
  · exact ⟨part, hcell, he⟩

end IsCutAtCommas

/-! ### Rows -/

/-- That an expression is a row with certain cells. -/
inductive IsRow : Expr → List (List Expr) → Prop
  | group {opening closing : List Char} {body : List Expr} {cells : List (List Expr)}
    (bracket : opening = ['('] ∨ opening = ['[']) (cut : IsCutAtCommas body cells) :
    IsRow (.group opening (some closing) body) cells

theorem Expr.rowCells?_eq_some_iff {e : Expr} {cs : List (List Expr)} :
    e.rowCells? = some cs ↔ IsRow e cs := by
  constructor
  · intro h
    unfold rowCells? at h
    split at h
    · split at h
      · next bracket =>
        cases h
        exact .group bracket (isCutAtCommas_cells _)
      · cases h
    · cases h
  · rintro ⟨bracket, cut⟩
    rw [rowCells?, if_pos bracket, isCutAtCommas_iff.mp cut]

/-- That a body looks like a matrix with certain rows. -/
structure LooksLikeMatrix (body : List Expr) (rows : List (List (List Expr))) : Prop where
  /-- Rows alternate with single commas, and there is a row at both ends. -/
  alternating : ∃ groups, List.Forall₂ IsRow groups rows ∧ body = groups.intersperse .comma
  two_le : 2 ≤ rows.length
  columns : ∃ n, ∀ row ∈ rows, row.length = n

namespace Expr

variable {body : List Expr} {rows : List (List (List Expr))}

theorem alternatingRows?_eq_some_iff :
    alternatingRows? body = some rows ↔
      rows ≠ [] ∧ ∃ groups, List.Forall₂ IsRow groups rows ∧ body = groups.intersperse comma := by
  constructor
  · intro h
    fun_induction alternatingRows? body generalizing rows with
    | case1 => cases h
    | case2 e =>
      obtain ⟨row, hrow, rfl⟩ := Option.map_eq_some_iff.mp h
      exact ⟨List.cons_ne_nil _ _, [e], .cons (rowCells?_eq_some_iff.mp hrow) .nil, rfl⟩
    | case3 e comma' rest row more hmore hcomma hrow ih =>
      cases h
      obtain ⟨hne, groups, hgroups, rfl⟩ := ih hmore
      obtain rfl := isComma_iff.mp hcomma
      refine ⟨List.cons_ne_nil _ _, e :: groups, .cons (rowCells?_eq_some_iff.mp hrow) hgroups, ?_⟩
      cases hgroups with
      | nil => exact absurd rfl hne
      | cons => rfl
    | case4 => cases h
  · rintro ⟨hne, groups, hgroups, rfl⟩
    induction hgroups with
    | nil => exact absurd rfl hne
    | @cons e row groups rows hrow hgroups ih =>
      have hcells := rowCells?_eq_some_iff.mpr hrow
      cases hgroups with
      | nil =>
        rw [List.intersperse_singleton, alternatingRows?, hcells]
        rfl
      | @cons e' row' groups rows hrow' hgroups =>
        have hmore := ih (List.cons_ne_nil _ _)
        rw [List.intersperse_cons_cons, alternatingRows?, hcells, hmore]
        rfl

/-- **The rows of a body are found exactly if it looks like them.** -/
theorem matrixRows?_eq_some_iff : matrixRows? body = some rows ↔ LooksLikeMatrix body rows := by
  constructor
  · intro h
    unfold matrixRows? at h
    split at h
    · next row rest hrows =>
      obtain ⟨⟨htwo, hcolumns⟩, heq⟩ := Option.ite_none_right_eq_some.mp h
      cases heq
      obtain ⟨-, halternating⟩ := alternatingRows?_eq_some_iff.mp hrows
      refine ⟨halternating, Nat.succ_le_succ (List.length_pos_of_ne_nil htwo), row.length, ?_⟩
      rw [List.forall_mem_cons]
      exact ⟨rfl, by simpa using hcolumns⟩
    · cases h
  · rintro ⟨halternating, htwo, n, hcolumns⟩
    have hne : rows ≠ [] := List.ne_nil_of_length_pos (by omega)
    rw [matrixRows?, alternatingRows?_eq_some_iff.mpr ⟨hne, halternating⟩]
    obtain ⟨row, rest, rfl⟩ := List.exists_cons_of_ne_nil hne
    rw [List.forall_mem_cons] at hcolumns
    refine if_pos ⟨?_, ?_⟩
    · rintro rfl
      exact Nat.not_succ_le_self 1 htwo
    · simpa [hcolumns.1] using hcolumns.2

end Expr

namespace LooksLikeMatrix

variable {body : List Expr} {rows : List (List (List Expr))}

theorem exists_row {row : List (List Expr)} (h : LooksLikeMatrix body rows) (hrow : row ∈ rows) :
    ∃ e ∈ body, IsRow e row := by
  obtain ⟨groups, hgroups, rfl⟩ := h.alternating
  obtain ⟨e, he, hisRow⟩ := exists_of_forall₂ hgroups.flip hrow
  exact ⟨e, mem_intersperse_of_mem he, hisRow⟩

/-- Nothing stands in the body beside the rows and the commas. -/
theorem comma_or_row {e : Expr} (h : LooksLikeMatrix body rows) (he : e ∈ body) :
    e = Expr.comma ∨ ∃ row ∈ rows, IsRow e row := by
  obtain ⟨groups, hgroups, rfl⟩ := h.alternating
  exact (eq_or_mem_of_mem_intersperse he).imp_right (exists_of_forall₂ hgroups)

/-- The cells are free of commas. -/
theorem comma_not_mem {row : List (List Expr)} {cell : List Expr} (h : LooksLikeMatrix body rows)
    (hrow : row ∈ rows) (hcell : cell ∈ row) : Expr.comma ∉ cell := by
  obtain ⟨e, -, hisRow⟩ := h.exists_row hrow
  cases hisRow with
  | group _ cut => exact cut.free cell hcell

/-- What all closed groups of the body hold for the expressions in them is true in the cells. -/
theorem forall_cells {p : Expr → Prop} (h : LooksLikeMatrix body rows)
    (hp : ∀ opening closing inner, Expr.group opening (some closing) inner ∈ body →
      ∀ e ∈ inner, p e) :
    ∀ row ∈ rows, ∀ cell ∈ row, ∀ e ∈ cell, p e := by
  intro row hrow cell hcell e he
  obtain ⟨g, hg, hisRow⟩ := h.exists_row hrow
  cases hisRow with
  | group _ cut => exact hp _ _ _ hg e (cut.subset hcell he)

end LooksLikeMatrix

/-! ### Groups -/

namespace Expr

variable {opening closing : List Char} {body : List Expr}

theorem ofGroup_cases (opening : List Char) (closing? : Option (List Char)) (body : List Expr) :
    (∃ closing rows, closing? = some closing ∧ LooksLikeMatrix body rows ∧
      ofGroup opening closing? body = .matrix opening closing rows) ∨
    ofGroup opening closing? body = .group opening closing? body := by
  unfold ofGroup
  split
  · next closing rows hrows =>
    exact .inl ⟨closing, rows, rfl, matrixRows?_eq_some_iff.mp hrows, rfl⟩
  · exact .inr rfl

/-- **A closed group is a matrix exactly if its body looks like one.** -/
theorem ofGroup_eq_matrix_iff {rows : List (List (List Expr))} :
    ofGroup opening (some closing) body = .matrix opening closing rows ↔
      LooksLikeMatrix body rows := by
  rw [← matrixRows?_eq_some_iff]
  unfold ofGroup
  cases matrixRows? body with
  | none => simp
  | some rows' => simp

/-- A group keeps its body if that does not look like a matrix. -/
theorem ofGroup_eq_group (h : ∀ rows, ¬LooksLikeMatrix body rows) :
    ofGroup opening (some closing) body = .group opening (some closing) body := by
  unfold ofGroup
  split
  · next hrows => exact absurd (matrixRows?_eq_some_iff.mp hrows) (h _)
  · rfl

end Expr

end DocumentMath.AsciiMath
