import DocumentMath.Proofs.AsciiMath.Writing
import DocumentMath.AsciiMath.Token

/-!
# The LaTeX of the symbols keeps balance

`Role.IsSound` says what the LaTeX of a symbol must be like where it is written, and every symbol of
the table is sound (`isSound_symbols`). A character that no symbol begins with, and a number,
stand for themselves; as the backslash and both braces are symbols, these have no marks either
(`isBalanced_character`, `isBalanced_number`).
-/

namespace DocumentMath.AsciiMath

/-! ### The table -/

/-- The LaTeX of a symbol keeps balance wherever it is written: as an atom, in front of its
arguments, or behind a sizing command. -/
inductive Role.IsSound : Role → Prop
  | constant {latex : List Char} (h : IsBalanced latex) : IsSound (.constant latex)
  | leftBracket {latex : List Char} (h : IsDelimiter (delimiter latex)) :
    IsSound (.leftBracket latex)
  | rightBracket {latex : List Char} (h : IsDelimiter (delimiter latex))
    (hatom : IsBalanced latex) : IsSound (.rightBracket latex)
  | unary {command : UnaryCommand} (h : command.IsSound) : IsSound (.unary command)
  | textual {latex : List Char} (h : IsBalanced latex) : IsSound (.textual latex)
  | binary {command : BinaryCommand} (h : command.IsSound) : IsSound (.binary command)
  | sub : IsSound .sub
  | sup : IsSound .sup
  | divide : IsSound .divide

/-- A control word is a delimiter, if no letters behind it can make it one of the sizing commands.
-/
theorem isDelimiter_command {c : Char} {cs : List Char}
    (hletters : ∀ d ∈ c :: cs, isLetter d = true) (hleft : ¬ c :: cs <+: "left".toList)
    (hright : ¬ c :: cs <+: "right".toList) :
    IsDelimiter ('\\' :: c :: cs) := by
  have hplain : ∀ d ∈ cs, d ≠ '\\' ∧ charMark? d = none := by
    intro d hd
    have hletter := hletters d (List.mem_cons_of_mem _ hd)
    refine ⟨fun heq ↦ ?_, ?_⟩
    · rw [heq] at hletter
      revert hletter
      decide
    · rw [charMark?, if_neg, if_neg]
      all_goals
        rintro rfl
        revert hletter
        decide
  refine ⟨⟨'\\', rfl, by decide⟩, ?_, fun b ↦ ?_⟩
  · intro hlast
    have hletter := hletters _ (List.mem_of_getLast? (l := c :: cs) hlast)
    revert hletter
    decide
  · have hprefix : c :: cs <+: (c :: (cs ++ b)).takeWhile isLetter := by
      rw [← List.cons_append, List.takeWhile_append_of_pos hletters]
      exact List.prefix_append _ _
    have hword : wordMark? ((c :: (cs ++ b)).takeWhile isLetter) = none := by
      rw [wordMark?, if_neg, if_neg]
      · exact fun heq ↦ hright (heq ▸ hprefix)
      · exact fun heq ↦ hleft (heq ▸ hprefix)
    rw [List.cons_append, List.cons_append, marks_escape, hword, marks_append_of_plain hplain]
    rfl

/-- Whether a text is a delimiter for one of three reasons: it is a control word that does not begin
a sizing command, or a backslash with one other character behind it, or it has neither a backslash
nor braces. -/
def looksDelimiting : List Char → Bool
  | '\\' :: c :: cs =>
    if isLetter c then
      cs.all isLetter && !(c :: cs).isPrefixOf "left".toList && !(c :: cs).isPrefixOf "right".toList
    else cs.isEmpty && c != '\\'
  | c :: cs => !isLetter c && (c :: cs).all fun d ↦ d != '\\' && (charMark? d).isNone
  | [] => false

theorem isDelimiter_of_looksDelimiting {cs : List Char} (h : looksDelimiting cs = true) :
    IsDelimiter cs := by
  unfold looksDelimiting at h
  split at h
  · next c cs =>
    split at h
    · next hletter =>
      simp only [Bool.and_eq_true, Bool.not_eq_true', List.all_eq_true] at h
      obtain ⟨⟨hletters, hleft⟩, hright⟩ := h
      refine isDelimiter_command (List.forall_mem_cons.mpr ⟨hletter, hletters⟩) ?_ ?_
      · rw [← List.isPrefixOf_iff_prefix, hleft]
        exact Bool.false_ne_true
      · rw [← List.isPrefixOf_iff_prefix, hright]
        exact Bool.false_ne_true
    · next hletter =>
      rw [Bool.and_eq_true, List.isEmpty_iff, bne_iff_ne] at h
      obtain ⟨rfl, hc⟩ := h
      refine ⟨⟨'\\', rfl, by decide⟩, by simpa using hc, fun b ↦ ?_⟩
      -- the escaped character names no control word
      rw [List.cons_append, List.singleton_append, marks_escape,
        List.takeWhile_cons_of_neg hletter]
      rfl
  · next c cs _ =>
    rw [Bool.and_eq_true, Bool.not_eq_true', List.all_eq_true] at h
    obtain ⟨hletter, hplain⟩ := h
    have hplain' : ∀ d ∈ c :: cs, d ≠ '\\' ∧ charMark? d = none := fun d hd ↦ by
      simpa using hplain d hd
    exact ⟨⟨c, rfl, hletter⟩, (IsPiece.of_plain hplain').1.last, marks_append_of_plain hplain'⟩
  · cases h

/-- Whether the LaTeX of a symbol looks as it has to where it is written. -/
def Role.looksSound : Role → Bool
  | constant latex | textual latex => looksBalanced latex
  | leftBracket latex => looksDelimiting (delimiter latex)
  | rightBracket latex => looksDelimiting (delimiter latex) && looksBalanced latex
  | unary (.command latex) | binary (.command latex) => looksBalanced latex
  | unary (.delimited opening closing) => looksDelimiting opening && looksDelimiting closing
  | binary .root | binary .color | sub | sup | divide => true

theorem Role.isSound_of_looksSound {role : Role} (h : role.looksSound = true) : role.IsSound := by
  unfold looksSound at h
  split at h
  · exact .constant (isBalanced_of_looksBalanced h)
  · exact .textual (isBalanced_of_looksBalanced h)
  · exact .leftBracket (isDelimiter_of_looksDelimiting h)
  · obtain ⟨hdelimiter, hatom⟩ := Bool.and_eq_true_iff.mp h
    exact .rightBracket (isDelimiter_of_looksDelimiting hdelimiter)
      (isBalanced_of_looksBalanced hatom)
  · exact .unary (.command (isBalanced_of_looksBalanced h))
  · exact .binary (.command (isBalanced_of_looksBalanced h))
  · obtain ⟨ho, hc⟩ := Bool.and_eq_true_iff.mp h
    exact .unary (.delimited (isDelimiter_of_looksDelimiting ho)
      (isDelimiter_of_looksDelimiting hc))
  · exact .binary .root
  · exact .binary .color
  · exact .sub
  · exact .sup
  · exact .divide

theorem looksSound_symbols : ∀ s ∈ symbols, s.role.looksSound = true := by
  decide +kernel

/-- **Every symbol of the table is sound.** -/
theorem isSound_symbols : ∀ s ∈ symbols, s.role.IsSound :=
  fun s hs ↦ Role.isSound_of_looksSound (looksSound_symbols s hs)

/-! ### What the reader finds -/

/-- What is kept of two symbols is one of them. -/
theorem eq_or_eq_of_longer {best? : Option Symbol} {s s' : Symbol}
    (h : longer best? s = some s') : best? = some s' ∨ s = s' := by
  unfold longer at h
  split at h
  · split at h
    · exact .inr (Option.some.inj h)
    · exact .inl h
  · exact .inr (Option.some.inj h)

theorem mem_of_foldl_longer {ss : List Symbol} {best? : Option Symbol} {s : Symbol}
    (h : ss.foldl longer best? = some s) : best? = some s ∨ s ∈ ss := by
  induction ss generalizing best? with
  | nil => exact .inl h
  | cons t ss ih =>
    rw [List.foldl_cons] at h
    rcases ih h with hbest | hmem
    · rcases eq_or_eq_of_longer hbest with heq | rfl
      · exact .inl heq
      · exact .inr List.mem_cons_self
    · exact .inr (List.mem_cons_of_mem _ hmem)

theorem mem_symbols_of_lookup? {text : List Char} {s : Symbol} (h : lookup? text = some s) :
    s ∈ symbols := by
  rcases mem_of_foldl_longer h with hnone | hmem
  · cases hnone
  · exact (List.mem_filter.mp hmem).1

theorem isSome_longer (best? : Option Symbol) (s : Symbol) : (longer best? s).isSome = true := by
  unfold longer
  split
  · split <;> rfl
  · rfl

theorem isSome_foldl_longer {ss : List Symbol} {best? : Option Symbol}
    (h : best?.isSome = true ∨ ss ≠ []) : (ss.foldl longer best?).isSome = true := by
  induction ss generalizing best? with
  | nil => exact h.resolve_right fun hne ↦ hne rfl
  | cons s ss ih => exact ih (.inl (isSome_longer best? s))

/-- A text in which no symbol is found begins with none. -/
theorem not_isPrefixOf_of_lookup? {text : List Char} (h : lookup? text = none) :
    ∀ s ∈ symbols, s.input.isPrefixOf text = false := by
  intro s hs
  rw [← Bool.not_eq_true]
  intro hprefix
  have hne : symbols.filter (·.input.isPrefixOf text) ≠ [] :=
    List.ne_nil_of_mem (List.mem_filter.mpr ⟨hs, hprefix⟩)
  have hsome : (lookup? text).isSome = true := isSome_foldl_longer (.inr hne)
  rw [h] at hsome
  cases hsome

/-- The characters that make marks are symbols. -/
theorem any_input_markChars :
    (['\\', '\x7b', '\x7d'].all fun c ↦ symbols.any (·.input == [c])) = true := by
  decide +kernel

/-- A character that begins no symbol has no mark. -/
theorem isBalanced_character {c : Char} {cs : List Char} (h : lookup? (c :: cs) = none) :
    IsBalanced [c] := by
  have hsymbol : ∀ d ∈ ['\\', '\x7b', '\x7d'], c ≠ d := by
    rintro d hd rfl
    obtain ⟨s, hs, hinput⟩ := List.any_eq_true.mp (List.all_eq_true.mp any_input_markChars _ hd)
    have hno := not_isPrefixOf_of_lookup? h s hs
    rw [beq_iff_eq.mp hinput] at hno
    simp at hno
  have hslash : c ≠ '\\' := hsymbol _ (by simp)
  have hopen : c ≠ '\x7b' := hsymbol _ (by simp)
  have hclose : c ≠ '\x7d' := hsymbol _ (by simp)
  refine .of_plain fun d hd ↦ ?_
  rw [List.mem_singleton.mp hd, charMark?, if_neg hopen, if_neg hclose]
  exact ⟨hslash, rfl⟩

/-- The number at the start of a text is made of digits and points. -/
theorem mem_numberAt {cs : List Char} {d : Char} (h : d ∈ (numberAt cs).1) :
    isDigit d = true ∨ d = '.' := by
  unfold numberAt at h
  split at h
  · next rest _ =>
    split at h
    · exact .inl (List.mem_takeWhile_imp h)
    · rw [List.mem_append, List.mem_cons] at h
      rcases h with h | rfl | h
      · exact .inl (List.mem_takeWhile_imp h)
      · exact .inr rfl
      · exact .inl (List.mem_takeWhile_imp h)
  · exact .inl (List.mem_takeWhile_imp h)

theorem isBalanced_number (cs : List Char) : IsBalanced (numberAt cs).1 := by
  refine .of_plain fun d hd ↦ ?_
  have hne (e : Char) (he : ¬ (isDigit e = true ∨ e = '.')) : d ≠ e := by
    rintro rfl
    exact he (mem_numberAt hd)
  have hopen : d ≠ '\x7b' := hne _ (by decide)
  have hclose : d ≠ '\x7d' := hne _ (by decide)
  rw [charMark?, if_neg hopen, if_neg hclose]
  exact ⟨hne _ (by decide), rfl⟩

end DocumentMath.AsciiMath
