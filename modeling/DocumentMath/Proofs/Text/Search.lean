import DocumentMath.Text.Search
import Mathlib.Data.List.Infix

/-!
# Where a text occurs

`occursIn` finds a text exactly where it stands between two others.
-/

namespace DocumentMath.Text

theorem occursIn_iff {needle cs : List Char} : occursIn needle cs = true ↔ needle <:+: cs := by
  induction cs with
  | nil => simp [occursIn]
  | cons c cs ih =>
    rw [occursIn, Bool.or_eq_true, List.isPrefixOf_iff_prefix, ih, List.infix_cons_iff]

end DocumentMath.Text
