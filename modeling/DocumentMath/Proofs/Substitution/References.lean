import DocumentMath.Substitution
import Mathlib.Data.List.Infix

/-!
# Attribute references

A text is looked through once, from left to right, and each reference to an attribute that has a
value is replaced. References do not overlap, since a name holds no braces. So a reference can be
replaced apart from what stands in front of it and behind it, whatever that is: a brace that is not
closed, a name without a value, or a value that reads like a reference. What carries the proof is
that a text may be cut in front of any opening brace (`Substitution.expand_append_brace`); the main
statement is `SubstitutionSet.apply_attributes`.
-/

namespace DocumentMath

namespace Attributes

/-- A name that can be referred to: one or more ASCII letters, digits, underscores and hyphens. -/
def IsReferable (name : String) : Prop :=
  name ≠ "" ∧ ∀ c ∈ name.toList, c.isAlphanum ∨ c = '_' ∨ c = '-'

/-- The reference to a name. -/
def reference (name : String) : String :=
  "\x7b" ++ name ++ "\x7d"

theorem toList_reference (name : String) :
    (reference name).toList = '\x7b' :: (name.toList ++ ['\x7d']) := by
  rw [reference, String.toList_append, String.toList_append]
  rfl

end Attributes

namespace Substitution

open Attributes

variable {attributes : Attributes} {cs name rest : List Char} {value : String}

theorem isNameChar_iff {c : Char} : isNameChar c = true ↔ c.isAlphanum ∨ c = '_' ∨ c = '-' := by
  have hupper : c.isUpper = ('A' ≤ c && c ≤ 'Z') := Bool.decide_and _ _
  have halphanum : c.isAlphanum = ((c.isUpper || ('a' ≤ c && c ≤ 'z')) || ('0' ≤ c && c ≤ '9')) :=
    rfl
  rw [halphanum, hupper, isNameChar]
  simp only [Bool.or_eq_true, Bool.and_eq_true, decide_eq_true_eq, beq_iff_eq]
  exact or_assoc.trans (or_congr (or_congr or_comm Iff.rfl) Iff.rfl)

theorem isReferable_iff {name : String} : IsReferable name ↔
    name.toList ≠ [] ∧ ∀ c ∈ name.toList, isNameChar c = true := by
  simp only [IsReferable, isNameChar_iff, ne_eq, String.toList_eq_nil_iff]

/-! ### The next reference -/

theorem reference?_eq_some_iff : reference? attributes cs = some (name, value) ↔
    name ≠ [] ∧ (∀ c ∈ name, isNameChar c = true) ∧
      attributes.get? (String.ofList name) = some value ∧ ∃ rest, cs = name ++ '\x7d' :: rest := by
  have hclosing : isNameChar '\x7d' = false := by decide
  constructor
  · intro h
    unfold reference? at h
    split at h
    · next c name' rest htake hdrop =>
      obtain ⟨v, hv, heq⟩ := Option.map_eq_some_iff.mp h
      cases heq
      refine ⟨List.cons_ne_nil _ _, fun c hc ↦ ?_, hv, rest, ?_⟩
      · rw [← htake] at hc
        exact List.all_eq_true.mp List.all_takeWhile c hc
      · rw [← htake, ← hdrop, List.takeWhile_append_dropWhile]
    · cases h
  · rintro ⟨hne, hname, hvalue, rest, rfl⟩
    have htake : (name ++ '\x7d' :: rest).takeWhile isNameChar = name := by
      rw [List.takeWhile_append_of_pos hname, List.takeWhile_cons_of_neg (by simp [hclosing]),
        List.append_nil]
    have hdrop : (name ++ '\x7d' :: rest).dropWhile isNameChar = '\x7d' :: rest := by
      rw [List.dropWhile_append_of_pos hname, List.dropWhile_cons_of_neg (by simp [hclosing])]
    obtain ⟨c, name, rfl⟩ := List.exists_cons_of_ne_nil hne
    rw [reference?, htake, hdrop]
    simp only [hvalue, Option.map_some]

theorem expandFrom_eq_drop (attributes : Attributes) (skip : Nat) (cs : List Char) :
    expandFrom attributes skip cs = expand attributes (cs.drop skip) := by
  induction skip generalizing cs with
  | zero => rfl
  | succ skip ih =>
    cases cs with
    | nil => rfl
    | cons c cs => exact ih cs

theorem expand_cons_of_ne {c : Char} (h : c ≠ '\x7b') (cs : List Char) :
    expand attributes (c :: cs) = c :: expand attributes cs := by
  rw [expand, expandFrom, if_neg h]
  rfl

theorem expand_brace_of_none (h : reference? attributes cs = none) :
    expand attributes ('\x7b' :: cs) = '\x7b' :: expand attributes cs := by
  rw [expand, expandFrom, if_pos rfl, h]
  rfl

/-- A reference is replaced, and what is behind it is looked through. -/
theorem expand_reference (h : reference? attributes (name ++ '\x7d' :: rest) = some (name, value)) :
    expand attributes ('\x7b' :: (name ++ '\x7d' :: rest))
      = value.toList ++ expand attributes rest := by
  rw [expand, expandFrom, if_pos rfl, h]
  simp only [expandFrom_eq_drop, List.append_cancel_left_eq]
  congr 1
  rw [List.drop_append, List.drop_of_length_le (Nat.le_succ _), Nat.add_sub_cancel_left]
  rfl

/-! ### Cutting a text -/

/-- A reference does not reach beyond an opening brace. -/
theorem reference?_append_brace (u w : List Char) :
    reference? attributes (u ++ '\x7b' :: w) = reference? attributes u := by
  have hbrace : isNameChar '\x7b' = false := by decide
  refine Option.ext fun found ↦ ?_
  rw [Prod.eta found |>.symm, reference?_eq_some_iff, reference?_eq_some_iff]
  refine and_congr_right fun _ ↦ and_congr_right fun hname ↦ and_congr_right fun _ ↦ ⟨?_, ?_⟩
  · rintro ⟨rest, hrest⟩
    -- the closing brace stands in front of the opening one, as that cannot be part of the name
    rcases List.append_eq_append_iff.mp hrest with ⟨more, hmore, hcut⟩ | ⟨more, hmore, hcut⟩
    · cases more with
      | nil => cases hcut
      | cons c more =>
        obtain rfl := (List.cons.inj hcut).1
        have hmem := hname '\x7b' (hmore ▸ List.mem_append_right _ List.mem_cons_self)
        rw [hbrace] at hmem
        cases hmem
    · cases more with
      | nil => cases hcut
      | cons c more =>
        obtain rfl := (List.cons.inj hcut).1
        exact ⟨more, hmore⟩
  · rintro ⟨rest, rfl⟩
    exact ⟨rest ++ '\x7b' :: w, by rw [List.append_assoc]; rfl⟩

/-- A text may be cut in front of an opening brace. -/
theorem expand_append_brace (attributes : Attributes) (u w : List Char) :
    expand attributes (u ++ '\x7b' :: w)
      = expand attributes u ++ expand attributes ('\x7b' :: w) := by
  induction hlength : u.length using Nat.strong_induction_on generalizing u with
  | _ n ih =>
    subst hlength
    cases u with
    | nil => rfl
    | cons c u =>
      rw [List.cons_append]
      by_cases hc : c = '\x7b'
      · subst hc
        cases href : reference? attributes u with
        | none =>
          rw [expand_brace_of_none href,
            expand_brace_of_none ((reference?_append_brace u w).trans href),
            ih u.length (Nat.lt_succ_self _) u rfl, List.cons_append]
        | some found =>
          -- the part in front of the cut goes on behind the reference
          obtain ⟨name, value⟩ := found
          obtain ⟨-, -, -, rest, rfl⟩ := reference?_eq_some_iff.mp href
          have hlt : rest.length < ('\x7b' :: (name ++ '\x7d' :: rest)).length := by
            simp only [List.length_cons, List.length_append]
            omega
          have href' := (reference?_append_brace (name ++ '\x7d' :: rest) w).trans href
          rw [List.append_assoc, List.cons_append] at href' ⊢
          rw [expand_reference href, expand_reference href', ih rest.length hlt rest rfl,
            List.append_assoc]
      · rw [expand_cons_of_ne hc, expand_cons_of_ne hc, ih u.length (Nat.lt_succ_self _) u rfl,
          List.cons_append]

/-- A text without references to names that have a value is left as it is. -/
theorem expand_of_no_reference {text : List Char}
    (h : ∀ name value, attributes.get? (String.ofList name) = some value → name ≠ [] →
      (∀ c ∈ name, isNameChar c = true) → ¬ '\x7b' :: (name ++ ['\x7d']) <:+: text) :
    expand attributes text = text := by
  induction text with
  | nil => rfl
  | cons c cs ih =>
    have hcs : expand attributes cs = cs := ih fun name value hvalue hne hname hocc ↦
      h name value hvalue hne hname (hocc.trans (List.suffix_cons c cs).isInfix)
    by_cases hc : c = '\x7b'
    · subst hc
      have hnone : reference? attributes cs = none := by
        rw [Option.eq_none_iff_forall_ne_some]
        rintro ⟨name, value⟩ href
        obtain ⟨hne, hname, hvalue, rest, rfl⟩ := reference?_eq_some_iff.mp href
        refine h name value hvalue hne hname (List.IsPrefix.isInfix ⟨rest, ?_⟩)
        simp
      rw [expand_brace_of_none hnone, hcs]
    · rw [expand_cons_of_ne hc, hcs]

end Substitution

namespace SubstitutionSet

open Attributes

/-- **Attribute references are replaced in one pass.** A reference to a name that has a value is
replaced by the value, which is not looked through, and the texts in front of it and behind it come
to what they come to alone. A text without such references is left as it is. -/
theorem apply_attributes (attributes : Attributes) :
    (∀ name value u v, attributes.get? name = some value → IsReferable name →
      (ofList [.attributes]).apply (some attributes) (u ++ reference name ++ v)
        = (ofList [.attributes]).apply (some attributes) u ++ value
          ++ (ofList [.attributes]).apply (some attributes) v) ∧
    ∀ text : String,
      (∀ name, (attributes.get? name).isSome → IsReferable name →
        ¬(reference name).toList <:+: text.toList) →
      (ofList [.attributes]).apply (some attributes) text = text := by
  have happly : ∀ text, (ofList [.attributes]).apply (some attributes) text
      = String.ofList (Substitution.expand attributes text.toList) := fun _ ↦ rfl
  simp only [happly]
  refine ⟨fun name value u v hvalue hname ↦ ?_, fun text htext ↦ ?_⟩
  · obtain ⟨hne, hchars⟩ := Substitution.isReferable_iff.mp hname
    have href : Substitution.reference? attributes (name.toList ++ '\x7d' :: v.toList)
        = some (name.toList, value) :=
      Substitution.reference?_eq_some_iff.mpr
        ⟨hne, hchars, by rw [String.ofList_toList, hvalue], _, rfl⟩
    have htext : (u ++ reference name ++ v).toList
        = u.toList ++ '\x7b' :: (name.toList ++ '\x7d' :: v.toList) := by
      simp [toList_reference]
    rw [htext, Substitution.expand_append_brace, Substitution.expand_reference href,
      String.ofList_append, String.ofList_append, String.ofList_toList, String.append_assoc]
  · have hexpand : Substitution.expand attributes text.toList = text.toList := by
      refine Substitution.expand_of_no_reference fun name value hvalue hne hchars ↦ ?_
      have hname : IsReferable (String.ofList name) :=
        Substitution.isReferable_iff.mpr (by rw [String.toList_ofList]; exact ⟨hne, hchars⟩)
      have habsent := htext _ (Option.isSome_of_mem hvalue) hname
      rwa [toList_reference, String.toList_ofList] at habsent
    rw [hexpand, String.ofList_toList]

/-- Two attributes, of which one has a value that reads like a reference to the other. -/
def referringAttributes : Attributes :=
  .ofList [("n", "\x7bm\x7d"), ("m", "1")]

/-- A reference behind half of one whose value reads like a reference, and a text with a reference
to a name that has no value. -/
theorem apply_attributes_referring :
    referringAttributes.get? "n" = some "\x7bm\x7d" ∧ IsReferable "n" ∧
      (ofList [.attributes]).apply (some referringAttributes)
          ("\x7bm" ++ reference "n" ++ "\x7d \x7bm\x7d")
        = (ofList [.attributes]).apply (some referringAttributes) "\x7bm" ++ "\x7bm\x7d"
          ++ (ofList [.attributes]).apply (some referringAttributes) "\x7d \x7bm\x7d" ∧
      (ofList [.attributes]).apply (some referringAttributes) "\x7bk\x7d" = "\x7bk\x7d" := by
  obtain ⟨hreplaced, hleft⟩ := apply_attributes referringAttributes
  have hentries : referringAttributes.entries = [("m", "1"), ("n", "\x7bm\x7d")] := by
    decide +kernel
  have hvalue : referringAttributes.get? "n" = some "\x7bm\x7d" := by
    rw [get?, hentries]
    rfl
  have hname : IsReferable "n" := ⟨by decide, List.forall_mem_singleton.mpr (.inl rfl)⟩
  refine ⟨hvalue, hname, hreplaced _ _ _ _ hvalue hname, hleft _ fun name hsome _ ↦ ?_⟩
  rw [get?, hentries, Option.isSome_map, List.find?_isSome] at hsome
  obtain ⟨entry, hentry, heq⟩ := hsome
  rw [beq_iff_eq] at heq
  subst heq
  simp only [List.mem_cons, List.not_mem_nil, or_false] at hentry
  rcases hentry with rfl | rfl <;> decide

end SubstitutionSet

end DocumentMath
