import DocumentMath.Json.Reader
import DocumentMath.Proofs.Fallible
import Mathlib.Data.List.TakeWhile

/-!
# Scalars are read back

A text between quotation marks, and a number, are taken off the front of a text just as they are
written there. A text ends with its quotation mark; a number ends where neither a digit nor a point
nor an exponent goes on (`EndsNumber`), as it does in front of everything that may follow a value.
-/

namespace DocumentMath.Json

open Fallible (bind_of_ok)

/-! ### Texts -/

theorem hexValue?_hexDigit {n : Nat} (h : n < 16) : hexValue? (hexDigit n) = some n := by
  have hall : ∀ n < 16, hexValue? (hexDigit n) = some n := by decide
  exact hall n h

/-- A control character is read back from its code point. -/
theorem codePoint_control {c : Char} (h : c.toNat < 0x20) (cs : List Char) :
    codePoint ('0' :: '0' :: hexDigit (c.toNat / 16) :: hexDigit (c.toNat % 16) :: cs)
      = .ok (c, cs) := by
  have hzero : hexValue? '0' = some 0 := by decide
  have hhigh : hexValue? (hexDigit (c.toNat / 16)) = some (c.toNat / 16) :=
    hexValue?_hexDigit (by omega)
  have hlow : hexValue? (hexDigit (c.toNat % 16)) = some (c.toNat % 16) :=
    hexValue?_hexDigit (by omega)
  have hvalue : ((0 * 16 + 0) * 16 + c.toNat / 16) * 16 + c.toNat % 16 = c.toNat := by omega
  have hquad : hexQuad ('0' :: '0' :: hexDigit (c.toNat / 16) :: hexDigit (c.toNat % 16) :: cs)
      = .ok (c.toNat, cs) := by
    rw [hexQuad, hzero, hhigh, hlow]
    exact congrArg (fun n ↦ Except.ok (n, cs)) hvalue
  have hnotLow : isLowSurrogate c.toNat = false := by
    rw [isLowSurrogate, Bool.and_eq_false_iff, decide_eq_false_iff_not]
    exact .inl (by omega)
  have hnotHigh : isHighSurrogate c.toNat = false := by
    rw [isHighSurrogate, Bool.and_eq_false_iff, decide_eq_false_iff_not]
    exact .inl (by omega)
  rw [codePoint, bind_of_ok hquad]
  show (if isLowSurrogate c.toNat = true then _ else if isHighSurrogate c.toNat = true then _
    else Except.ok (Char.ofNat c.toNat, cs)) = _
  rw [hnotLow, hnotHigh, Char.ofNat_toNat]
  rfl

/-- A character is read back, whichever way it is written. -/
theorem textRest_escapeChar (c : Char) (steps : Nat) (cs : List Char) :
    textRest codePoint (steps + 1) (escapeChar c ++ cs)
      = (textRest codePoint steps cs).map (Prod.map (c :: ·) id) := by
  unfold escapeChar
  split
  · next h => rw [h]; rfl
  split
  · next h => rw [h]; rfl
  split
  · next h => rw [h]; rfl
  split
  · next h => rw [h]; rfl
  split
  · next h => rw [h]; rfl
  split
  · next h => rw [h]; rfl
  split
  · next h => rw [h]; rfl
  split
  · next h =>
    show (codePoint ('0' :: '0' :: hexDigit (c.toNat / 16) :: hexDigit (c.toNat % 16) :: cs) >>=
      fun x ↦ textRest codePoint steps x.2 >>= fun y ↦ .ok (x.1 :: y.1, y.2)) = _
    rw [bind_of_ok (codePoint_control h cs)]
    rfl
  · next hquote hslash _ _ _ _ _ hcontrol =>
    show (if c = '\x22' then _ else if c = '\\' then _ else if c.toNat < 0x20 then _
      else textRest codePoint steps cs >>= fun y ↦ .ok (c :: y.1, y.2)) = _
    rw [if_neg hquote, if_neg hslash, if_neg hcontrol]
    rfl

theorem textRest_flatMap_escapeChar {text : List Char} {steps : Nat} (h : text.length < steps)
    (cs : List Char) :
    textRest codePoint steps (text.flatMap escapeChar ++ '\x22' :: cs) = .ok (text, cs) := by
  induction text generalizing steps with
  | nil =>
    obtain ⟨steps, rfl⟩ := Nat.exists_eq_succ_of_ne_zero (Nat.ne_zero_of_lt h)
    rfl
  | cons c text ih =>
    obtain ⟨steps, rfl⟩ := Nat.exists_eq_succ_of_ne_zero (Nat.ne_zero_of_lt h)
    have hsteps : text.length < steps := Nat.lt_of_succ_lt_succ h
    rw [List.flatMap_cons, List.append_assoc, textRest_escapeChar, ih hsteps]
    rfl

theorem escapeChar_ne_nil (c : Char) : escapeChar c ≠ [] := by
  unfold escapeChar
  repeat' split
  all_goals exact List.cons_ne_nil _ _

theorem length_le_length_flatMap_escapeChar (text : List Char) :
    text.length ≤ (text.flatMap escapeChar).length := by
  induction text with
  | nil => exact Nat.le_refl _
  | cons c text ih =>
    have hpos := List.length_pos_iff.mpr (escapeChar_ne_nil c)
    rw [List.flatMap_cons, List.length_append, List.length_cons]
    omega

/-- **A text is read back from between its quotation marks.** -/
theorem text_quote (s : String) (cs : List Char) :
    text (s.toList.flatMap escapeChar ++ '\x22' :: cs) = .ok (s, cs) := by
  have hlength := length_le_length_flatMap_escapeChar s.toList
  have hsteps : s.toList.length < (s.toList.flatMap escapeChar ++ '\x22' :: cs).length := by
    rw [List.length_append, List.length_cons]
    omega
  rw [text, textRest_flatMap_escapeChar hsteps]
  exact congrArg (fun t ↦ Except.ok (t, cs)) String.ofList_toList

/-! ### Numbers -/

/-- Whether a number goes on with a character. -/
def continuesNumber (c : Char) : Bool :=
  isDigit c || c == '.' || c == 'e' || c == 'E'

/-- A number ends where the text begins. -/
def EndsNumber (cs : List Char) : Prop :=
  ∀ c ∈ cs.head?, continuesNumber c = false

section Digits

variable {ds cs : List Char}

theorem EndsNumber.isDigit (h : EndsNumber cs) : ∀ c ∈ cs.head?, isDigit c = false := by
  intro c hc
  have hends := h c hc
  simp only [continuesNumber, Bool.or_eq_false_iff] at hends
  exact hends.1.1.1

theorem digits_append (hne : ds ≠ []) (hds : ∀ d ∈ ds, isDigit d = true)
    (hcs : ∀ c ∈ cs.head?, isDigit c = false) : digits (ds ++ cs) = .ok (ds, cs) := by
  have hstop : cs.takeWhile isDigit = [] ∧ cs.dropWhile isDigit = cs := by
    cases cs with
    | nil => exact ⟨rfl, rfl⟩
    | cons c cs =>
      have hc : ¬ isDigit c = true := by simp [hcs c rfl]
      exact ⟨List.takeWhile_cons_of_neg hc, List.dropWhile_cons_of_neg hc⟩
  have htake : (ds ++ cs).takeWhile isDigit = ds := by
    rw [List.takeWhile_append_of_pos hds, hstop.1, List.append_nil]
  have hdrop : (ds ++ cs).dropWhile isDigit = cs := by
    rw [List.dropWhile_append_of_pos hds, hstop.2]
  have hempty : ds.isEmpty = false := by rwa [List.isEmpty_eq_false_iff]
  rw [digits, htake, hdrop, hempty]
  rfl

theorem places_of_endsNumber (h : EndsNumber cs) : places cs = .ok (none, cs) := by
  unfold places
  split
  · next rest => exact absurd (h '.' rfl) (by decide)
  · rfl

theorem exponent_of_endsNumber (h : EndsNumber cs) : exponent cs = .ok (none, cs) := by
  cases cs with
  | nil => rfl
  | cons c cs =>
    have hc : ¬ (c = 'e' ∨ c = 'E') := by
      rintro (rfl | rfl)
      · exact absurd (h 'e' rfl) (by decide)
      · exact absurd (h 'E' rfl) (by decide)
    unfold exponent
    exact if_neg hc

end Digits

theorem head?_append_of_ne_nil {ds : List Char} (h : ds ≠ []) (cs : List Char) :
    (ds ++ cs).head? = ds.head? := by
  obtain ⟨d, ds, rfl⟩ := List.exists_cons_of_ne_nil h
  rfl

theorem natOfDigits_toDigits (n : Nat) : natOfDigits (Nat.toDigits 10 n) = n := by
  have hfold : ∀ (ds : List Char), natOfDigits ds = Nat.ofDigitChars 10 ds 0 := by
    intro ds
    rw [Nat.ofDigitChars_eq_foldl, natOfDigits]
    congr 1
    funext m c
    rw [Nat.mul_comm]
    rfl
  rw [hfold, Nat.ofDigitChars_ten_toDigits]

theorem isDigit_of_mem_toDigits {n : Nat} {d : Char} (h : d ∈ Nat.toDigits 10 n) :
    isDigit d = true :=
  Nat.isDigit_of_mem_toDigits (by decide) (by decide) h

/-- Only zero is written with a zero in front. -/
theorem toDigits_of_head?_eq_zero {n : Nat} (h : (Nat.toDigits 10 n).head? = some '0') :
    Nat.toDigits 10 n = ['0'] := by
  induction n using Nat.strongRecOn with
  | ind n ih =>
    rcases Nat.lt_or_ge n 10 with hlt | hge
    · rw [Nat.toDigits_of_lt_base hlt] at h ⊢
      exact congrArg (fun c ↦ [c]) (Option.some.inj h)
    · exfalso
      have hsplit := Nat.toDigits_of_base_le (by decide) hge
      rw [hsplit, head?_append_of_ne_nil Nat.toDigits_ne_nil] at h
      have hzero := ih (n / 10) (by omega) h
      have hvalue := natOfDigits_toDigits (n / 10)
      rw [hzero] at hvalue
      have hquotient : 0 = n / 10 := hvalue
      omega

theorem wholeDigits_toDigits (n : Nat) {cs : List Char} (h : EndsNumber cs) :
    wholeDigits (Nat.toDigits 10 n ++ cs) = .ok (Nat.toDigits 10 n, cs) := by
  unfold wholeDigits
  split
  · next cs' heq =>
    have hhead : (Nat.toDigits 10 n).head? = some '0' := by
      rw [← head?_append_of_ne_nil Nat.toDigits_ne_nil cs, heq]
      rfl
    rw [toDigits_of_head?_eq_zero hhead] at heq ⊢
    obtain rfl : cs = cs' := (List.cons.inj heq).2
    cases cs with
    | nil => rfl
    | cons c cs =>
      have hc := h.isDigit c rfl
      rw [List.head?_cons, Option.map_some, hc]
      rfl
  · exact digits_append Nat.toDigits_ne_nil (fun d hd ↦ isDigit_of_mem_toDigits hd) h.isDigit

/-- The parts of a number that is not negative. -/
theorem numberParts_eq {cs : List Char} (h : cs.head? ≠ some '-') :
    numberParts cs = (wholeDigits cs >>= fun (whole, cs) ↦ places cs >>= fun (places?, cs) ↦
      exponent cs >>= fun (exponent?, cs) ↦ .ok (⟨false, whole, places?, exponent?⟩, cs)) := by
  unfold numberParts
  split
  next negative cs' heq =>
  split at heq
  · exact absurd rfl h
  · obtain ⟨rfl, rfl⟩ := Prod.mk.inj heq
    rfl

theorem numberParts_toDigits (n : Nat) {cs : List Char} (h : EndsNumber cs) :
    numberParts (Nat.toDigits 10 n ++ cs) = .ok (⟨false, Nat.toDigits 10 n, none, none⟩, cs) := by
  have hhead : (Nat.toDigits 10 n ++ cs).head? ≠ some '-' := by
    rw [head?_append_of_ne_nil Nat.toDigits_ne_nil]
    intro heq
    exact absurd (isDigit_of_mem_toDigits (List.mem_of_head? heq)) (by decide)
  rw [numberParts_eq hhead]
  simp only [bind_of_ok (wholeDigits_toDigits n h), bind_of_ok (places_of_endsNumber h),
    bind_of_ok (exponent_of_endsNumber h)]

/-- **A number of at most 64 bits is read back.** -/
theorem numberValue_toDigits {n : Nat} (hn : n < significandBound) {cs : List Char}
    (h : EndsNumber cs) : numberValue (Nat.toDigits 10 n ++ cs) = .ok (.natural n, cs) := by
  have hvalue : NumberParts.value? ⟨false, Nat.toDigits 10 n, none, none⟩ = some (.natural n) := by
    rw [NumberParts.value?, natOfDigits_toDigits, if_pos hn]
  rw [numberValue, bind_of_ok (numberParts_toDigits n h)]
  simp only [hvalue]

/-- What is written for a number that is no natural one is read as such a number. -/
theorem numberValue_number {cs : List Char} (h : EndsNumber cs) :
    numberValue ('0' :: '.' :: '0' :: cs) = .ok (.number, cs) := by
  have hsign : ('0' :: '.' :: '0' :: cs).head? ≠ some '-' :=
    fun heq ↦ absurd (Option.some.inj heq) (by decide)
  have hwhole : wholeDigits ('0' :: '.' :: '0' :: cs) = .ok (['0'], '.' :: '0' :: cs) := rfl
  have hdigits : digits ('0' :: cs) = .ok (['0'], cs) :=
    digits_append (List.cons_ne_nil '0' []) (List.forall_mem_singleton.mpr rfl) h.isDigit
  have hplaces : places ('.' :: '0' :: cs) = .ok (some ['0'], cs) := by
    rw [places, hdigits]
    rfl
  have hparts : numberParts ('0' :: '.' :: '0' :: cs)
      = .ok (⟨false, ['0'], some ['0'], none⟩, cs) := by
    rw [numberParts_eq hsign]
    simp only [bind_of_ok hwhole, bind_of_ok hplaces, bind_of_ok (exponent_of_endsNumber h)]
  rw [numberValue, bind_of_ok hparts]
  rfl

end DocumentMath.Json
