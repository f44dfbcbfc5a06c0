import DocumentMath.Pass.Replacement
import DocumentMath.Proofs.Inline.Settled
import DocumentMath.Proofs.Render.FileName
import Mathlib.Data.List.DropRight

/-!
# What a pass puts into texts

A rendered inline equation is replaced by a reference in the sense of `Inline.IsReference`, if no
equation opens in the markup that is embedded (`Artifact.isReference_embedded`) or in the target
that is referred to (`Artifact.isReference_imageReference`). The target of an inline equation is
made up of the lead of the location and of a name that is computed, which has no colon in it, so
that only the lead matters (`OutputLocation.not_opens_target`).
-/

namespace DocumentMath

namespace Inline

/-! ### Where equations open -/

theorem not_opens_of_colon_not_mem {cs : List Char} (h : ':' ∉ cs) : ¬Opens cs := by
  rintro ⟨name, hname⟩
  exact h (hname.subset (List.mem_append_right _ (List.mem_singleton_self _)))

theorem Opens.of_prefix {cs ds : List Char} (h : Opens cs) (hle : cs <+: ds) : Opens ds := by
  obtain ⟨name, hname⟩ := h
  exact ⟨name, hname.trans hle.isInfix⟩

/-- What ends a text, without a certain character, ends what is behind that. -/
theorem suffix_of_suffix_append_cons {needle cs ds : List Char} {c : Char} (hc : c ∉ needle)
    (h : needle <:+ cs ++ c :: ds) : needle <:+ ds := by
  rcases List.suffix_or_suffix_of_suffix h (List.suffix_append cs (c :: ds)) with hle | hle
  · rcases List.suffix_cons_iff.mp hle with rfl | hle
    · exact absurd List.mem_cons_self hc
    · exact hle
  · exact absurd (hle.subset List.mem_cons_self) hc

/-- What is found in a text, without a certain character, is found in front of that or behind it. -/
theorem infix_append_cons {needle cs ds : List Char} {c : Char} (hc : c ∉ needle)
    (h : needle <:+: cs ++ c :: ds) : needle <:+: cs ∨ needle <:+: ds := by
  obtain ⟨pre, post, h⟩ := h
  -- the needle ends in front of the character, or else it would go across it
  rcases List.append_eq_append_iff.mp h with ⟨mid, hcs, -⟩ | ⟨mid, hpre, hds⟩
  · exact Or.inl ⟨pre, mid, hcs.symm⟩
  · cases mid with
    | nil => exact Or.inl ⟨pre, [], by rw [hpre, List.append_nil, List.append_nil]⟩
    | cons d mid =>
      obtain ⟨rfl, rfl⟩ := List.cons.inj hds
      have hmid := suffix_of_suffix_append_cons hc ⟨pre, hpre⟩
      exact Or.inr (hmid.isInfix.trans List.infix_append_left)

/-- No equation opens across a character that is neither a letter nor a colon. -/
theorem Opens.of_append_cons {cs ds : List Char} {c : Char} (hc : isSubsChar c = false)
    (hcolon : c ≠ ':') (h : Opens (cs ++ c :: ds)) : Opens cs ∨ Opens ds := by
  obtain ⟨name, hname⟩ := h
  have hmem : c ∉ name.chars ++ [':'] := by
    intro hmem
    rcases List.mem_append.mp hmem with hmem | hmem
    · rw [isSubsChar_of_mem_chars name c hmem] at hc
      cases hc
    · exact hcolon (List.mem_singleton.mp hmem)
  rcases infix_append_cons hmem hname with h | h
  · exact Or.inl ⟨name, h⟩
  · exact Or.inr ⟨name, h⟩

/-- What opens across a colon has its name right in front of it. -/
theorem Opens.of_append_colon {word rest : List Char} (hword : ':' ∉ word)
    (h : Opens (word ++ ':' :: rest)) :
    (∃ name : MacroName, name.chars <:+ word) ∨ Opens rest := by
  obtain ⟨name, pre, post, h⟩ := h
  have h' : pre ++ name.chars ++ ':' :: post = word ++ ':' :: rest := by
    rw [← h]
    simp
  rcases List.append_eq_append_iff.mp h' with ⟨mid, hmid, hpost⟩ | ⟨mid, hpre, hrest⟩
  · cases mid with
    | nil => exact Or.inl ⟨name, pre, by rw [hmid, List.append_nil]⟩
    | cons c mid =>
      obtain ⟨rfl, -⟩ := List.cons.inj hpost
      exact absurd (by rw [hmid]; simp) hword
  · cases mid with
    | nil => exact Or.inl ⟨name, pre, by rw [hpre, List.append_nil]⟩
    | cons c mid =>
      obtain ⟨rfl, rfl⟩ := List.cons.inj hrest
      obtain ⟨before, rfl⟩ := suffix_of_suffix_append_cons (colon_not_mem_chars name) ⟨pre, hpre⟩
      exact Or.inr ⟨name, before, post, by simp⟩

/-- The words of references, which no name ends in. -/
theorem isReference_of_word {word inside : List Char}
    (hword : word = ['i', 'm', 'a', 'g', 'e'] ∨ word = ['p', 'a', 's', 's']) (h : ¬Opens inside) :
    IsReference (word ++ ':' :: (inside ++ [']'])) := by
  refine ⟨⟨word, inside ++ [']'], rfl, ?_, ?_⟩, ?_, ?_⟩
  · refine List.all_eq_true.mp ?_
    rcases hword with rfl | rfl <;> decide
  · rintro (_ | _ | _) <;> rcases hword with rfl | rfl <;> decide
  · rw [← List.cons_append, ← List.append_assoc, List.getLast?_concat]
  · intro hopens
    have hcolon : ':' ∉ word := by rcases hword with rfl | rfl <;> decide
    rcases Opens.of_append_colon hcolon hopens with ⟨name, hname⟩ | hopens
    · revert hname
      rcases hword with rfl | rfl <;> cases name <;> decide
    · rcases Opens.of_append_cons (by decide) (by decide) hopens with hopens | hopens
      · exact h hopens
      · exact not_opens_of_colon_not_mem List.not_mem_nil hopens

end Inline

open Inline

/-! ### Targets -/

/-- No equation opens in the target of such a file, unless one opens in the lead. -/
theorem OutputLocation.not_opens_target {l : OutputLocation} {fileName : String}
    (hlead : ¬Opens l.lead.toList) (hname : ':' ∉ fileName.toList) :
    ¬Opens (l.target fileName).toList := by
  rw [target]
  split
  · exact not_opens_of_colon_not_mem hname
  · intro h
    simp only [String.toList_append, String.toList_ofList, List.append_assoc] at h
    rcases Opens.of_append_cons (c := '/') (by decide) (by decide) h with h | h
    · exact hlead (h.of_prefix (List.rdropWhile_prefix (· == '/') l.lead.toList))
    · exact not_opens_of_colon_not_mem hname h

/-! ### Artifacts in texts -/

namespace Artifact

/-- Markup between tags in a reference. The tags are variables here, since what they are does not
matter. -/
theorem isReference_tagged {opening markup closing : String} {word : List Char}
    (inside outside : List Char) (hopening : opening.toList = word ++ ':' :: (inside ++ ['>']))
    (hclosing : closing.toList = '<' :: (outside ++ [']']))
    (hword : word = ['i', 'm', 'a', 'g', 'e'] ∨ word = ['p', 'a', 's', 's'])
    (hinside : ':' ∉ inside) (houtside : ':' ∉ outside) (h : ¬Opens markup.toList) :
    IsReference (opening ++ markup ++ closing).toList := by
  have htext : (opening ++ markup ++ closing).toList
      = word ++ ':' :: (inside ++ '>' :: (markup.toList ++ '<' :: outside) ++ [']']) := by
    simp [hopening, hclosing]
  rw [htext]
  refine isReference_of_word hword fun hopens ↦ ?_
  rcases Opens.of_append_cons (by decide) (by decide) hopens with hopens | hopens
  · exact not_opens_of_colon_not_mem hinside hopens
  · rcases Opens.of_append_cons (by decide) (by decide) hopens with hopens | hopens
    · exact h hopens
    · exact not_opens_of_colon_not_mem houtside hopens

/-- Embedded markup is a reference, if no equation opens in it. -/
theorem isReference_embedded {a : Artifact} (h : ¬Opens a.markup.toList) :
    IsReference a.embedded.toList :=
  isReference_tagged "[<span class=\"steminline\"".toList "/span>".toList (by decide +kernel)
    (by decide +kernel) (Or.inr rfl) (by decide +kernel) (by decide +kernel) h

/-- A target in a reference, with something in brackets behind it. -/
theorem isReference_bracketed {opening target bracketed : String} {word : List Char}
    (inside : List Char) (hopening : opening.toList = word ++ [':'])
    (hbracketed : bracketed.toList = '[' :: (inside ++ [']']))
    (hword : word = ['i', 'm', 'a', 'g', 'e'] ∨ word = ['p', 'a', 's', 's'])
    (hinside : ':' ∉ inside) (h : ¬Opens target.toList) :
    IsReference (opening ++ target ++ bracketed).toList := by
  have htext : (opening ++ target ++ bracketed).toList
      = word ++ ':' :: (target.toList ++ '[' :: inside ++ [']']) := by
    simp [hopening, hbracketed]
  rw [htext]
  refine isReference_of_word hword fun hopens ↦ ?_
  rcases Opens.of_append_cons (by decide) (by decide) hopens with hopens | hopens
  · exact h hopens
  · exact not_opens_of_colon_not_mem hinside hopens

theorem colon_not_mem_toString (n : Nat) : ':' ∉ (toString n).toList := by
  rw [Nat.toString_eq_repr, Nat.repr_eq_ofList_toDigits, String.toList_ofList]
  intro hmem
  exact absurd (Nat.isDigit_of_mem_toDigits (by decide) (by decide) hmem) (by decide)

/-- The size of an image in brackets. -/
theorem toList_size {opening middle closing : String} (inside : List Char) (width height : Nat)
    (hopening : opening.toList = '[' :: inside) (hclosing : closing.toList = [']']) :
    (opening ++ toString width ++ middle ++ toString height ++ closing).toList
      = '[' :: (inside ++ (toString width).toList ++ middle.toList ++ (toString height).toList
        ++ [']']) := by
  simp [hopening, hclosing]

/-- A reference to a file is one, if no equation opens in the target. -/
theorem isReference_imageReference {a : Artifact} {target : String}
    (htarget : a.target? = some target) (h : ¬Opens target.toList) :
    IsReference a.imageReference.toList := by
  rw [imageReference, htarget, Option.getD_some]
  have hopening : "image:".toList = ['i', 'm', 'a', 'g', 'e'] ++ [':'] := by decide +kernel
  split
  · next width height _ _ =>
    refine isReference_bracketed _ hopening
      (toList_size "width=".toList width.toNat height.toNat (by decide +kernel)
        (by decide +kernel)) (Or.inl rfl) ?_ h
    simp only [List.mem_append, not_or]
    exact ⟨⟨⟨by decide +kernel, colon_not_mem_toString _⟩, by decide +kernel⟩,
      colon_not_mem_toString _⟩
  · exact isReference_bracketed [] hopening (by decide +kernel) (Or.inl rfl)
      List.not_mem_nil h

end Artifact

end DocumentMath
