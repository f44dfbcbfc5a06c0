import DocumentMath.AsciiMath.Parser
import DocumentMath.Proofs.AsciiMath.Symbols
import Mathlib.Data.List.Infix

/-!
# The tokens of a text

Reading takes tokens off the front of a text: what is left is a suffix of it (`suffix_of_next?`),
and shorter (`length_lt_of_next?`). What a token keeps of the text is a part of it. There is no
token only where there are nothing but blank characters (`next?_eq_none_iff`).
-/

namespace DocumentMath.AsciiMath

/-! ### What a token is -/

section Parts

variable {cs rest : List Char}

theorem numberAt_append (cs : List Char) : (numberAt cs).1 ++ (numberAt cs).2 = cs := by
  have hsplit : cs.takeWhile isDigit ++ cs.dropWhile isDigit = cs := List.takeWhile_append_dropWhile
  unfold numberAt
  split
  · next fraction hdrop =>
    split
    · exact hdrop ▸ hsplit
    · simp only [List.append_assoc, List.cons_append, List.takeWhile_append_dropWhile]
      exact hdrop ▸ hsplit
  · exact hsplit

/-- A token that is read at a character with what stands behind it. -/
inductive IsTokenAt (c : Char) (cs : List Char) : Token → Prop
  | quoted : IsTokenAt c cs (.quoted (cs.takeWhile (· ≠ quote)))
  | number : IsTokenAt c cs (.number (numberAt (c :: cs)).1)
  | symbol {s : Symbol} (found : lookup? (c :: cs) = some s) : IsTokenAt c cs (.symbol s)
  | character (none : lookup? (c :: cs) = none) : IsTokenAt c cs (.character c)

theorem isTokenAt_tokenAt (c : Char) (cs : List Char) :
    IsTokenAt c cs (tokenAt c cs).1 ∧ (tokenAt c cs).2 <:+ c :: cs := by
  unfold tokenAt
  split
  · exact ⟨.quoted, ((List.drop_suffix _ _).trans (List.dropWhile_suffix _)).trans
      (List.suffix_cons _ _)⟩
  split
  · exact ⟨.number, _, numberAt_append _⟩
  split
  · next found => exact ⟨.symbol found, List.drop_suffix _ _⟩
  · next none => exact ⟨.character none, List.suffix_cons _ _⟩

/-- The next token is read at some place of the text, and what is left stands behind that. -/
theorem isTokenAt_of_next? {t : Token} (h : next? cs = some (t, rest)) :
    ∃ c cs', c :: cs' <:+ cs ∧ IsTokenAt c cs' t ∧ rest <:+ c :: cs' := by
  unfold next? at h
  split at h
  · cases h
  · next c cs' htrim =>
    have hsuffix : Text.trimStart cs <:+ cs := List.dropWhile_suffix _
    have htoken := isTokenAt_tokenAt c cs'
    rw [Option.some.inj h] at htoken
    exact ⟨c, cs', htrim ▸ hsuffix, htoken⟩

theorem suffix_of_next? {t : Token} (h : next? cs = some (t, rest)) : rest <:+ cs := by
  obtain ⟨c, cs', hsuffix, -, hrest⟩ := isTokenAt_of_next? h
  exact hrest.trans hsuffix

theorem infix_trim (cs : List Char) : Text.trim cs <:+: cs := by
  have hend : Text.trim cs <+: Text.trimStart cs := by
    rw [Text.trim, Text.trimEnd, ← List.reverse_suffix, List.reverse_reverse]
    exact List.dropWhile_suffix _
  have hstart : Text.trimStart cs <:+ cs := List.dropWhile_suffix _
  exact hend.isInfix.trans hstart.isInfix

/-- A text in double quotes is a part of the text it is read from. -/
theorem infix_of_next?_quoted {text : List Char} (h : next? cs = some (.quoted text, rest)) :
    text <:+: cs := by
  obtain ⟨c, cs', hsuffix, ⟨⟩, -⟩ := isTokenAt_of_next? h
  exact ((List.takeWhile_prefix _).isInfix.trans (List.suffix_cons _ _).isInfix).trans
    hsuffix.isInfix

theorem infix_of_next?_number {digits : List Char}
    (h : next? cs = some (.number digits, rest)) : digits <:+: cs := by
  obtain ⟨c, cs', hsuffix, ⟨⟩, -⟩ := isTokenAt_of_next? h
  have hdigits : (numberAt (c :: cs')).1 <+: c :: cs' := ⟨_, numberAt_append _⟩
  exact hdigits.isInfix.trans hsuffix.isInfix

theorem infix_of_next?_character {c : Char} (h : next? cs = some (.character c, rest)) :
    [c] <:+: cs := by
  obtain ⟨c', cs', hsuffix, ⟨⟩, -⟩ := isTokenAt_of_next? h
  have hfirst : [c] <+: c :: cs' := ⟨_, rfl⟩
  exact hfirst.isInfix.trans hsuffix.isInfix

theorem mem_symbols_of_next? {s : Symbol} (h : next? cs = some (.symbol s, rest)) :
    s ∈ symbols := by
  obtain ⟨c, cs', -, htoken, -⟩ := isTokenAt_of_next? h
  cases htoken with
  | symbol found => exact mem_symbols_of_lookup? found

theorem rawGroupFrom_parts (depth : Nat) (cs : List Char) :
    (rawGroupFrom depth cs).1 <+: cs ∧ (rawGroupFrom depth cs).2 <:+ cs := by
  fun_induction rawGroupFrom depth cs with
  | case1 => exact ⟨List.nil_prefix, List.nil_suffix⟩
  | case2 depth cs raw rest hraw ih =>
    rw [hraw] at ih
    exact ⟨List.cons_prefix_cons.mpr ⟨rfl, ih.1⟩, ih.2.trans (List.suffix_cons _ _)⟩
  | case3 cs => exact ⟨List.nil_prefix, List.suffix_cons _ _⟩
  | case4 depth cs raw rest hraw ih =>
    rw [hraw] at ih
    exact ⟨List.cons_prefix_cons.mpr ⟨rfl, ih.1⟩, ih.2.trans (List.suffix_cons _ _)⟩
  | case5 depth c cs hopen hclose hclose' raw rest hraw ih =>
    rw [hraw] at ih
    exact ⟨List.cons_prefix_cons.mpr ⟨rfl, ih.1⟩, ih.2.trans (List.suffix_cons _ _)⟩

/-- The raw text of a group in parentheses is a part of the text. -/
theorem parts_of_rawGroup? {raw : List Char} (h : rawGroup? cs = some (raw, rest)) :
    raw <:+: cs ∧ rest <:+ cs := by
  have htrim : Text.trimStart cs <:+ cs := List.dropWhile_suffix _
  unfold rawGroup? at h
  split at h
  · next cs' hopen =>
    have hsuffix : cs' <:+ cs := (List.suffix_cons _ _).trans (hopen ▸ htrim)
    obtain ⟨hraw, hrest⟩ := rawGroupFrom_parts 0 cs'
    rw [Option.some.inj h] at hraw hrest
    exact ⟨hraw.isInfix.trans hsuffix.isInfix, hrest.trans hsuffix⟩
  · cases h

end Parts

/-! ### Tokens take up space -/

section Space

variable {cs rest : List Char} {t : Token}

theorem next?_eq_none_iff : next? cs = none ↔ ∀ c ∈ cs, Text.isBlank c = true := by
  rw [next?]
  split
  · next htrim => exact iff_of_true rfl (List.dropWhile_eq_nil_iff.mp htrim)
  · next c cs' htrim =>
    refine iff_of_false (by simp) fun hall ↦ ?_
    have hnil : Text.trimStart cs = [] := List.dropWhile_eq_nil_iff.mpr hall
    rw [htrim] at hnil
    cases hnil

/-- Behind a place with no token there is none either. -/
theorem next?_eq_none_of_suffix (h : next? cs = none) (hsuffix : rest <:+ cs) :
    next? rest = none :=
  next?_eq_none_iff.mpr fun c hc ↦ next?_eq_none_iff.mp h c (hsuffix.subset hc)

theorem skipToken_of_next? (h : next? cs = some (t, rest)) : skipToken cs = rest := by
  rw [skipToken, h]

theorem skipToken_of_next?_eq_none (h : next? cs = none) : skipToken cs = [] := by
  rw [skipToken, h]

theorem nextIs_iff {role : Role} :
    nextIs role cs = true ↔ ∃ input rest, next? cs = some (.symbol ⟨input, role⟩, rest) := by
  rw [nextIs]
  split
  · next s rest hnext =>
    obtain ⟨input, role'⟩ := s
    simp [hnext]
  · next hnot =>
    refine iff_of_false Bool.false_ne_true ?_
    rintro ⟨input, rest, hnext⟩
    exact hnot _ _ hnext

theorem numberAt_ne_nil {c : Char} (h : isDigit c = true) (cs : List Char) :
    (numberAt (c :: cs)).1 ≠ [] := by
  have hwhole : (c :: cs).takeWhile isDigit ≠ [] := by
    rw [List.takeWhile_cons_of_pos h]
    exact List.cons_ne_nil _ _
  unfold numberAt
  split
  · split
    · exact hwhole
    · exact List.append_ne_nil_of_left_ne_nil hwhole _
  · exact hwhole

theorem input_ne_nil_symbols : ∀ s ∈ symbols, s.input ≠ [] := by
  decide +kernel

/-- What is left behind a token stands behind its first character. -/
theorem length_tokenAt_le (c : Char) (cs : List Char) : (tokenAt c cs).2.length ≤ cs.length := by
  unfold tokenAt
  split
  · exact ((List.drop_suffix _ _).trans (List.dropWhile_suffix _)).length_le
  split
  · next hdigit =>
    have hlength := congrArg List.length (numberAt_append (c :: cs))
    have hpos := List.length_pos_of_ne_nil (numberAt_ne_nil hdigit cs)
    rw [List.length_append, List.length_cons] at hlength
    show (numberAt (c :: cs)).2.length ≤ cs.length
    omega
  split
  · next s hfound =>
    have hpos := List.length_pos_of_ne_nil (input_ne_nil_symbols s (mem_symbols_of_lookup? hfound))
    rw [List.length_drop, List.length_cons]
    omega
  · exact Nat.le_refl _

/-- A token is never empty. -/
theorem length_lt_of_next? (h : next? cs = some (t, rest)) : rest.length < cs.length := by
  unfold next? at h
  split at h
  · cases h
  · next c cs' htrim =>
    have htoken : rest.length ≤ cs'.length := by
      have hle := length_tokenAt_le c cs'
      rwa [Option.some.inj h] at hle
    have htrimmed := Text.length_trimStart_le cs
    rw [htrim, List.length_cons] at htrimmed
    omega

/-- What stands behind a token is shorter than the text. -/
theorem length_lt_of_suffix {rest' : List Char} (h : next? cs = some (t, rest))
    (hsuffix : rest' <:+ rest) : rest'.length < cs.length :=
  Nat.lt_of_le_of_lt hsuffix.length_le (length_lt_of_next? h)

end Space

end DocumentMath.AsciiMath
