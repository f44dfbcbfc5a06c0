import DocumentMath.Equation

/-!
# Delimiters

Under one kind of delimiters, LaTeX can be told from the input (`delimit_inj`). But a pair of dollar
signs on each side may be the delimiters of a display, or those of an inline equation that has
dollar signs of its own around it (`delimit_inline_eq_display`). There is no other way in which two
inputs can be the same (`delimit_eq_delimit_iff`).
-/

namespace DocumentMath

theorem delimit_inj {a b : String} {inline : Bool} :
    delimit a inline = delimit b inline ↔ a = b := by
  rw [delimit, delimit, String.append_left_inj, String.append_right_inj]

/-- An inline equation reads as a display exactly if it has dollar signs of its own around it. -/
theorem delimit_inline_eq_display {a b : String} :
    delimit a true = delimit b false ↔ a = "$" ++ b ++ "$" := by
  have hdisplay : delimit b false = delimit ("$" ++ b ++ "$") true := by
    show "$" ++ "$" ++ b ++ ("$" ++ "$") = "$" ++ ("$" ++ b ++ "$") ++ "$"
    simp only [String.append_assoc]
  rw [hdisplay, delimit_inj]

/-- The first of two equations is inline and has dollar signs of its own around the LaTeX of the
second one, which is a display. -/
def ReadsAsDisplay (a : String) (i : Bool) (b : String) (j : Bool) : Prop :=
  i = true ∧ j = false ∧ a = "$" ++ b ++ "$"

/-- Two inputs are the same if LaTeX and delimiters are, or if one is inline and reads as the
display that the other one is. -/
theorem delimit_eq_delimit_iff {a b : String} {i j : Bool} :
    delimit a i = delimit b j
      ↔ (a = b ∧ i = j) ∨ ReadsAsDisplay a i b j ∨ ReadsAsDisplay b j a i := by
  cases i <;> cases j
  · simp [delimit_inj, ReadsAsDisplay]
  · rw [eq_comm, delimit_inline_eq_display]
    simp [ReadsAsDisplay]
  · rw [delimit_inline_eq_display]
    simp [ReadsAsDisplay]
  · simp [delimit_inj, ReadsAsDisplay]

end DocumentMath
