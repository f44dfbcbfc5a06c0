import DocumentMath.Text.Search
import Mathlib.Data.List.Infix

/-!
# Replacing every occurrence of a text

What `replaceAll` does at the front of a text: an occurrence that stands there is replaced, and a
character at which no occurrence begins is kept. The two cases are the steps of an induction on the
text (`replaceAll_induction`).
-/

namespace DocumentMath.Text

variable {needle replacement cs rest : List Char} {c : Char}

theorem replaceAll_append_self (hne : needle ≠ []) (rest : List Char) :
    replaceAll needle replacement (needle ++ rest)
      = replacement ++ replaceAll needle replacement rest := by
  obtain ⟨n, needle, rfl⟩ := List.exists_cons_of_ne_nil hne
  have hprefix : (n :: needle).isPrefixOf (n :: (needle ++ rest)) = true :=
    List.isPrefixOf_iff_prefix.mpr ⟨rest, rfl⟩
  rw [replaceAll, List.cons_append, replaceFrom, if_pos hprefix, replaceFrom_eq_drop]
  congr 2
  exact List.drop_left

theorem replaceAll_cons_of_not_isPrefix (h : ¬needle <+: c :: cs) :
    replaceAll needle replacement (c :: cs) = c :: replaceAll needle replacement cs := by
  rw [replaceAll, replaceFrom, if_neg (mt List.isPrefixOf_iff_prefix.mp h)]
  rfl

/-- The characters with which an occurrence cannot begin are passed over. -/
theorem replaceAll_append_of_forall_head? (h : ∀ c ∈ cs, needle.head? ≠ some c) (hne : needle ≠ [])
    (rest : List Char) :
    replaceAll needle replacement (cs ++ rest) = cs ++ replaceAll needle replacement rest := by
  induction cs with
  | nil => rfl
  | cons c cs ih =>
    have hprefix : ¬needle <+: c :: (cs ++ rest) := by
      obtain ⟨n, needle, rfl⟩ := List.exists_cons_of_ne_nil hne
      intro hocc
      exact h c List.mem_cons_self (congrArg some (List.cons_prefix_cons.mp hocc).1)
    rw [List.cons_append, replaceAll_cons_of_not_isPrefix hprefix,
      ih fun d hd ↦ h d (List.mem_cons_of_mem _ hd)]
    rfl

/-- A property of texts holds of all if it holds of the empty one, and of a text that goes on from
another one by an occurrence or by a character at which no occurrence begins. -/
theorem replaceAll_induction {motive : List Char → Prop} (hne : needle ≠ []) (nil : motive [])
    (found : ∀ rest, motive rest → motive (needle ++ rest))
    (other : ∀ c cs, ¬needle <+: c :: cs → motive cs → motive (c :: cs)) (text : List Char) :
    motive text := by
  induction hlength : text.length using Nat.strong_induction_on generalizing text with
  | _ n ih =>
    subst hlength
    cases text with
    | nil => exact nil
    | cons c cs =>
      by_cases hprefix : needle <+: c :: cs
      · obtain ⟨rest, hrest⟩ := hprefix
        have hlt : rest.length < (c :: cs).length := by
          have hpos := List.length_pos_of_ne_nil hne
          rw [← hrest, List.length_append]
          omega
        exact hrest ▸ found rest (ih _ hlt rest rfl)
      · exact other c cs hprefix (ih _ (Nat.lt_succ_self _) cs rfl)

/-- A text in which nothing is found is left as it is. -/
theorem replaceAll_of_not_isInfix (h : ¬needle <:+: cs) :
    replaceAll needle replacement cs = cs := by
  induction cs with
  | nil => rfl
  | cons c cs ih =>
    rw [replaceAll_cons_of_not_isPrefix fun hprefix ↦ h hprefix.isInfix,
      ih fun hocc ↦ h (hocc.trans (List.suffix_cons c cs).isInfix)]

end DocumentMath.Text
