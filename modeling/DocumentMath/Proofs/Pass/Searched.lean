import DocumentMath.Pass.Run
import DocumentMath.Proofs.Inline.Splice

/-!
# Texts that are searched

A text is searched for equations only if it may hold one: if there is a colon in it, and one of the
names. Such a test must not hide anything. It does not (`Pass.visitText_hides_nothing`): a text that
fails it has no place for an equation, valid or not, so that searching it and replacing its
equations would have come to the same (`Inline.replaceEquations_eq_replaceFound`). And a pass leaves
a text out of those that it counts as searched only if there is no equation in it.
-/

namespace DocumentMath

namespace Inline

/-! ### Searching in any case -/

section Monad

variable {m : Type → Type} [Monad m]

/-- Replaces the inline equations of a text, which is searched whether or not it may hold one. -/
def replaceFound (default : Dialect) (text : String) (replace : Occurrence → m (Option String)) :
    m Replaced := do
  let (cs, modified, escaped) ← replacePieces default replace 0 (pieces text.toList)
  pure ⟨String.ofList cs, modified, escaped⟩

/-- The cheap test makes no difference to replacing, neither to its effects nor to the new text. -/
theorem replaceEquations_eq_replaceFound [LawfulMonad m] (default : Dialect) (text : String)
    (replace : Occurrence → m (Option String)) :
    replaceEquations default text replace = replaceFound default text replace := by
  rw [replaceEquations_eq_map, asked, scan_eq_occurrences, occurrences, replaceFound,
    replacePieces_eq_map, bind_map_left, ← bind_pure_comp]
  rfl

end Monad

end Inline

open Inline

variable {σ : Type}

/-! ### What a visit counts -/

/-- The number of texts that have been searched. -/
def PassState.searched (st : PassState σ) : Nat :=
  st.report.spansScanned

namespace Pass

theorem count_leaves_searched {change : Report → Report}
    (h : ∀ r, (change r).spansScanned = r.spansScanned) :
    Fallible.Leaves (PassState.searched (σ := σ)) (count change) := fun st ↦ h st.report

theorem edit_leaves_searched (s : Site) (change : Document → Option Document) :
    Fallible.Leaves (PassState.searched (σ := σ)) (edit s change) := by
  intro st
  rw [edit, Fallible.run_bind_of_ok (Fallible.run_get _)]
  cases change st.document <;> rfl

variable (p : Pass σ)

theorem artifact?_leaves_searched (input : String) (explicit? : Option String) :
    Fallible.Leaves PassState.searched (p.artifact? input explicit?) := by
  intro st
  simp only [artifact?, ExceptT.run, ExceptT.mk, StateT.run]
  rcases st.rendering.render p.host p.settings input explicit? with ⟨e | a, rendering⟩
  · cases hfailure : e.isRenderFailure <;> simp only [hfailure] <;> rfl
  · rfl

theorem replace_leaves_searched (attributes : Attributes) (o : Occurrence) :
    Fallible.Leaves PassState.searched (p.replace attributes o) := by
  refine (artifact?_leaves_searched p _ _).bind fun a? ↦ ?_
  cases a? with
  | none => exact .pure _
  | some a =>
    refine .bind (count_leaves_searched ?_) fun _ ↦ .pure _
    exact fun _ ↦ rfl

/-- A visit counts a text that may hold an equation, and no other, whatever comes of the visit. -/
theorem searched_visitText (s : Site) (text : String) (st : PassState σ) :
    ((p.visitText s text).run.run st).2.searched
      = st.searched + if mayContain text then 1 else 0 := by
  rw [visitText]
  split
  · have hcount : (count fun r ↦ { r with spansScanned := r.spansScanned + 1 }).run.run st
        = (.ok (), { st with
            report := { st.report with spansScanned := st.report.spansScanned + 1 } }) := rfl
    rw [Fallible.run_bind_of_ok hcount, replaceEquations_eq_map]
    have hreplaced : Fallible.Leaves PassState.searched
        ((asked p.options.dialect text).mapM (p.replace s.attributes)) :=
      .mapM fun o _ ↦ replace_leaves_searched p s.attributes o
    refine ((hreplaced.map _).bind fun new ↦ .bind (count_leaves_searched ?_) fun _ ↦ ?_) _
    · exact fun _ ↦ rfl
    · split
      · exact (edit_leaves_searched s _).bind fun _ ↦ count_leaves_searched fun _ ↦ rfl
      · exact .pure _
  · rfl

/-! ### Main result -/

/-- **The cheap test hides nothing.** A text that fails it has no place for an equation, escaped or
not; searching and replacing come to the same with it and without it; and a text that a visit does
not count as searched has no equation in it. -/
theorem visitText_hides_nothing (text : String) :
    (mayContain text = false → ∀ (pre : List Char) (w : Written) (post : List Char),
      text.toList ≠ pre ++ w.source ++ post) ∧
    (∀ default, scan default text = occurrences default text) ∧
    (∀ (m : Type → Type) [Monad m] [LawfulMonad m] (default : Dialect)
      (replace : Occurrence → m (Option String)),
      replaceEquations default text replace = replaceFound default text replace) ∧
    ∀ (σ : Type) (p : Pass σ) (s : Site) (st : PassState σ),
      ((p.visitText s text).run.run st).2.report.spansScanned = st.report.spansScanned + 1 ∨
        ((p.visitText s text).run.run st).2.report.spansScanned = st.report.spansScanned ∧
          occurrences p.options.dialect text = [] := by
  refine ⟨fun hmay ↦ ne_place_of_not_mayContain (Bool.eq_false_iff.mp hmay),
    fun default ↦ scan_eq_occurrences default text,
    fun m _ _ default replace ↦ replaceEquations_eq_replaceFound default text replace,
    fun σ p s st ↦ ?_⟩
  have hcount := p.searched_visitText s text st
  by_cases hmay : mayContain text = true
  · rw [if_pos hmay] at hcount
    exact Or.inl hcount
  · rw [if_neg hmay] at hcount
    exact Or.inr ⟨hcount, occurrences_of_not_mayContain hmay p.options.dialect⟩

/-- A text with a colon and brackets, but without any of the names. -/
theorem visitText_hides_nothing_of_nameless :
    mayContain "ste m:[x]" = false ∧
      (∀ (pre : List Char) (w : Written) (post : List Char),
        "ste m:[x]".toList ≠ pre ++ w.source ++ post) ∧
      ∀ replace : Occurrence → Id (Option String),
        replaceEquations .latex "ste m:[x]" replace = replaceFound .latex "ste m:[x]" replace := by
  have hmay : mayContain "ste m:[x]" = false := by decide +kernel
  obtain ⟨hplace, -, hreplace, -⟩ := visitText_hides_nothing "ste m:[x]"
  exact ⟨hmay, hplace hmay, hreplace Id .latex⟩

end Pass

end DocumentMath
