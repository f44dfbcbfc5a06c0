import DocumentMath.Proofs.Text.Replacing
import DocumentMath.Substitution

/-!
# Typographic replacements and escaping

The table of replacements recognizes each arrow twice, as it is written and with its angle bracket
escaped, so that a text may be escaped before its signs are put in. In a text without ampersands
this comes to the same as putting the signs in first and escaping the angle brackets that are left
(`SubstitutionSet.apply_specialCharacters_replacements`).

The replacements are made one after the other, and a sign that was put in has an ampersand of its
own. What the proof carries along is that no other ampersands come in: each is followed by a number
sign (`Substitution.onlySigns`), unlike that of an escaped bracket. In such a text a replacement
finds the same whether the brackets are escaped before or after it (`replaceAll_escapeAngles`), an
arrow with its bracket escaped is not found while the brackets are as written
(`replaceAll_escapeAngles_left`), and an arrow as written is not found once they are escaped
(`replaceAll_escapeAngles_right`).
-/

namespace DocumentMath.Substitution

variable {needle replacement text cs ds : List Char} {c d : Char}

/-! ### Angle brackets -/

/-- What a character is written as if only angle brackets are special. -/
def escapeAngle (c : Char) : List Char :=
  if c = '<' then "&lt;".toList else if c = '>' then "&gt;".toList else [c]

/-- The text with its angle brackets escaped. -/
def escapeAngles (text : List Char) : List Char :=
  text.flatMap escapeAngle

theorem escapeAngles_cons (c : Char) (cs : List Char) :
    escapeAngles (c :: cs) = escapeAngle c ++ escapeAngles cs :=
  List.flatMap_cons

@[simp] theorem escapeAngles_append (cs ds : List Char) :
    escapeAngles (cs ++ ds) = escapeAngles cs ++ escapeAngles ds :=
  List.flatMap_append

/-- A character is an angle bracket or stands for itself. -/
theorem escapeAngle_cases (c : Char) :
    (c = '<' ∧ escapeAngle c = '&' :: "lt;".toList) ∨
      (c = '>' ∧ escapeAngle c = '&' :: "gt;".toList) ∨
      (c ≠ '<' ∧ c ≠ '>' ∧ escapeAngle c = [c]) := by
  by_cases hlt : c = '<'
  · subst hlt
    exact .inl ⟨rfl, rfl⟩
  by_cases hgt : c = '>'
  · subst hgt
    exact .inr (.inl ⟨rfl, rfl⟩)
  · exact .inr (.inr ⟨hlt, hgt, by rw [escapeAngle, if_neg hlt, if_neg hgt]⟩)

/-- What a character is written as begins with the character or with an ampersand, and goes on only
with what an escaped bracket has behind its ampersand. -/
theorem exists_escapeAngle_eq_cons (c : Char) :
    ∃ e es, (e = '&' ∨ e = c) ∧ es ⊆ "#ltg;".toList ∧ escapeAngle c = e :: es := by
  obtain ⟨-, h⟩ | ⟨-, h⟩ | ⟨-, -, h⟩ := escapeAngle_cases c
  · exact ⟨_, _, .inl rfl, by decide, h⟩
  · exact ⟨_, _, .inl rfl, by decide, h⟩
  · exact ⟨_, _, .inr rfl, List.nil_subset _, h⟩

theorem escapeAngle_ne_nil (c : Char) : escapeAngle c ≠ [] := by
  obtain ⟨e, es, -, -, h⟩ := exists_escapeAngle_eq_cons c
  rw [h]
  exact List.cons_ne_nil _ _

theorem angle_notMem_escapeAngles (text : List Char) :
    '<' ∉ escapeAngles text ∧ '>' ∉ escapeAngles text := by
  have hchar : ∀ c, '<' ∉ escapeAngle c ∧ '>' ∉ escapeAngle c := by
    intro c
    obtain ⟨-, h⟩ | ⟨-, h⟩ | ⟨hlt, hgt, h⟩ := escapeAngle_cases c
    · exact h ▸ ⟨by decide, by decide⟩
    · exact h ▸ ⟨by decide, by decide⟩
    · rw [h, List.mem_singleton, List.mem_singleton]
      exact ⟨hlt.symm, hgt.symm⟩
  simp only [escapeAngles, List.mem_flatMap, not_exists, not_and]
  exact ⟨fun c _ ↦ (hchar c).1, fun c _ ↦ (hchar c).2⟩

/-- Without ampersands, the special characters are the angle brackets. -/
theorem escape_eq_escapeAngles (h : '&' ∉ text) : escape text = escapeAngles text := by
  induction text with
  | nil => rfl
  | cons c cs ih =>
    have hc : escapeChar c = escapeAngle c := by
      have hne : c ≠ '&' := fun heq ↦ h (heq ▸ List.mem_cons_self)
      obtain ⟨rfl, -⟩ | ⟨rfl, -⟩ | ⟨hlt, hgt, heq⟩ := escapeAngle_cases c
      · rfl
      · rfl
      · rw [heq]
        unfold escapeChar
        split
        · exact absurd rfl hne
        · exact absurd rfl hlt
        · exact absurd rfl hgt
        · rfl
    rw [escapeAngles_cons, escape, List.flatMap_cons, hc]
    exact congrArg _ (ih fun hcs ↦ h (List.mem_cons_of_mem _ hcs))

/-! ### Signs -/

/-- Whether each ampersand of the text is followed by a number sign, as in the signs that the
replacements put in. -/
def onlySigns : List Char → Bool
  | [] => true
  | c :: cs => (c != '&' || cs.head? == some '#') && onlySigns cs

theorem onlySigns_cons_iff :
    onlySigns (c :: cs) = true ↔ (c = '&' → cs.head? = some '#') ∧ onlySigns cs = true := by
  rw [onlySigns, Bool.and_eq_true, Bool.or_eq_true, bne_iff_ne, beq_iff_eq]
  exact and_congr_left fun _ ↦ Decidable.imp_iff_not_or.symm

theorem onlySigns_of_notMem (h : '&' ∉ cs) : onlySigns cs = true := by
  induction cs with
  | nil => rfl
  | cons c cs ih =>
    exact onlySigns_cons_iff.mpr ⟨fun hc ↦ absurd (hc ▸ List.mem_cons_self) h,
      ih fun hcs ↦ h (List.mem_cons_of_mem _ hcs)⟩

theorem onlySigns_append (hcs : onlySigns cs = true) (hds : onlySigns ds = true) :
    onlySigns (cs ++ ds) = true := by
  induction cs with
  | nil => exact hds
  | cons c cs ih =>
    obtain ⟨hsign, hcs⟩ := onlySigns_cons_iff.mp hcs
    refine onlySigns_cons_iff.mpr ⟨fun hc ↦ ?_, ih hcs⟩
    obtain ⟨cs, rfl⟩ := List.head?_eq_some_iff.mp (hsign hc)
    rfl

theorem onlySigns_of_append (h : onlySigns (cs ++ ds) = true) : onlySigns ds = true := by
  induction cs with
  | nil => exact h
  | cons c cs ih => exact ih (onlySigns_cons_iff.mp h).2

/-- The ampersand of an escaped bracket is not that of a sign. -/
theorem not_infix_of_onlySigns (h : onlySigns text = true) (hd : d ≠ '#') : ¬['&', d] <:+: text := by
  rintro ⟨u, v, rfl⟩
  rw [List.append_assoc] at h
  exact hd (Option.some.inj ((onlySigns_cons_iff.mp (onlySigns_of_append h)).1 rfl))

/-! ### One replacement -/

/-- A text that can be recognized with its brackets escaped as well: it is not empty, and shares no
character with what an escaped bracket or the beginning of a sign is written with. -/
def IsRecognizable (needle : List Char) : Prop :=
  needle ≠ [] ∧ ∀ c ∈ needle, c ∉ "&#ltg;".toList

instance : DecidablePred IsRecognizable := fun needle ↦
  decidable_of_iff (needle ≠ [] ∧ needle.all (· ∉ "&#ltg;".toList) = true)
    (and_congr_right fun _ ↦ by simp only [List.all_eq_true, decide_eq_true_eq])

namespace IsRecognizable

theorem ampersand_notMem (h : IsRecognizable needle) : '&' ∉ needle := fun hmem ↦
  h.2 _ hmem (by decide)

theorem head?_ne (h : IsRecognizable needle) {c : Char} (hc : c ∈ "&#ltg;".toList) :
    needle.head? ≠ some c := fun hhead ↦
  h.2 _ (List.mem_of_mem_head? hhead) hc

theorem escapeAngles_ne_nil (h : IsRecognizable needle) : escapeAngles needle ≠ [] := by
  obtain ⟨c, cs, rfl⟩ := List.exists_cons_of_ne_nil h.1
  rw [escapeAngles_cons]
  exact List.append_ne_nil_of_left_ne_nil (escapeAngle_ne_nil c) _

/-- With its brackets escaped, the text begins with its first character or with an ampersand. -/
theorem head?_escapeAngles_ne (h : IsRecognizable needle) {c : Char} (hc : c ∈ "#ltg;".toList) :
    (escapeAngles needle).head? ≠ some c := by
  obtain ⟨n, needle, rfl⟩ := List.exists_cons_of_ne_nil h.1
  obtain ⟨e, es, he, -, hn⟩ := exists_escapeAngle_eq_cons n
  rw [escapeAngles_cons, hn]
  intro hhead
  obtain rfl : e = c := Option.some.inj hhead
  rcases he with rfl | rfl
  · exact absurd hc (by decide)
  · exact h.head?_ne (List.mem_cons_of_mem _ hc) rfl

end IsRecognizable

/-- Two texts whose escaped forms begin alike begin with the same character, if the first does not
begin with an ampersand and the second only with that of a sign. -/
theorem eq_of_escapeAngle_append (hc : c ≠ '&') (hd : d = '&' → ds.head? = some '#')
    (h : escapeAngle c ++ cs <+: escapeAngle d ++ escapeAngles ds) : c = d := by
  -- behind the ampersand, an escaped bracket has a letter where a sign has the number sign
  have hsign : ∀ e es, e ≠ '#' → d = '&' → ¬e :: es <+: escapeAngles ds := by
    intro e es he hd' hprefix
    obtain ⟨ds, rfl⟩ := List.head?_eq_some_iff.mp (hd hd')
    exact he (List.cons_prefix_cons.mp hprefix).1
  obtain ⟨rfl, hec⟩ | ⟨rfl, hec⟩ | ⟨-, -, hec⟩ := escapeAngle_cases c <;>
    obtain ⟨rfl, hed⟩ | ⟨rfl, hed⟩ | ⟨-, -, hed⟩ := escapeAngle_cases d <;>
    first | rfl | rw [hec, hed] at h
  · simp at h
  · exact absurd (List.cons_prefix_cons.mp h).2
      (hsign 'l' _ (by decide) (List.cons_prefix_cons.mp h).1.symm)
  · simp at h
  · exact absurd (List.cons_prefix_cons.mp h).2
      (hsign 'g' _ (by decide) (List.cons_prefix_cons.mp h).1.symm)
  · exact absurd (List.cons_prefix_cons.mp h).1 hc
  · exact absurd (List.cons_prefix_cons.mp h).1 hc
  · exact (List.cons_prefix_cons.mp h).1

/-- An occurrence of a text with its brackets escaped is one of the text itself. -/
theorem isPrefix_of_escapeAngles (hneedle : '&' ∉ needle) (htext : onlySigns text = true)
    (h : escapeAngles needle <+: escapeAngles text) : needle <+: text := by
  induction needle generalizing text with
  | nil => exact List.nil_prefix
  | cons n needle ih =>
    cases text with
    | nil =>
      rw [escapeAngles_cons] at h
      exact absurd (List.append_eq_nil_iff.mp (List.prefix_nil.mp h)).1 (escapeAngle_ne_nil n)
    | cons c cs =>
      obtain ⟨hsign, hcs⟩ := onlySigns_cons_iff.mp htext
      rw [escapeAngles_cons, escapeAngles_cons] at h
      obtain rfl := eq_of_escapeAngle_append
        (fun heq ↦ hneedle (heq ▸ List.mem_cons_self)) hsign h
      exact List.cons_prefix_cons.mpr
        ⟨rfl, ih (fun hmem ↦ hneedle (List.mem_cons_of_mem _ hmem)) hcs
          ((List.prefix_append_right_inj _).mp h)⟩

/-- The beginning of a sign is kept by a replacement, and signs are put in. -/
theorem onlySigns_replaceAll (hneedle : IsRecognizable needle)
    (hreplacement : onlySigns replacement = true) (htext : onlySigns text = true) :
    onlySigns (Text.replaceAll needle replacement text) = true := by
  induction text using Text.replaceAll_induction hneedle.1 with
  | nil => rfl
  | found rest ih =>
    rw [Text.replaceAll_append_self hneedle.1]
    exact onlySigns_append hreplacement (ih (onlySigns_of_append htext))
  | other c cs hprefix ih =>
    obtain ⟨hsign, hcs⟩ := onlySigns_cons_iff.mp htext
    rw [Text.replaceAll_cons_of_not_isPrefix hprefix]
    refine onlySigns_cons_iff.mpr ⟨fun hc ↦ ?_, ih hcs⟩
    obtain ⟨cs, rfl⟩ := List.head?_eq_some_iff.mp (hsign hc)
    have hnumber : ∀ d ∈ ['#'], needle.head? ≠ some d := fun d hd ↦
      hneedle.head?_ne (List.mem_singleton.mp hd ▸ by decide)
    exact congrArg List.head? (Text.replaceAll_append_of_forall_head? hnumber hneedle.1 cs)

/-- A replacement finds the same before and after the brackets are escaped. -/
theorem replaceAll_escapeAngles (hneedle : IsRecognizable needle)
    (hreplacement : escapeAngles replacement = replacement) (htext : onlySigns text = true) :
    Text.replaceAll (escapeAngles needle) replacement (escapeAngles text)
      = escapeAngles (Text.replaceAll needle replacement text) := by
  have hne := hneedle.escapeAngles_ne_nil
  induction text using Text.replaceAll_induction hneedle.1 with
  | nil => rfl
  | found rest ih =>
    rw [Text.replaceAll_append_self hneedle.1, escapeAngles_append, escapeAngles_append,
      Text.replaceAll_append_self hne, ih (onlySigns_of_append htext), hreplacement]
  | other c cs hprefix ih =>
    have hocc : ¬escapeAngles needle <+: escapeAngles (c :: cs) := fun h ↦
      hprefix (isPrefix_of_escapeAngles hneedle.ampersand_notMem htext h)
    rw [Text.replaceAll_cons_of_not_isPrefix hprefix, escapeAngles_cons]
    rw [escapeAngles_cons] at hocc ⊢
    obtain ⟨e, es, -, hes, hec⟩ := exists_escapeAngle_eq_cons c
    rw [hec, List.cons_append] at hocc ⊢
    rw [Text.replaceAll_cons_of_not_isPrefix hocc,
      Text.replaceAll_append_of_forall_head? (fun d hd ↦ hneedle.head?_escapeAngles_ne (hes hd))
        hne, ih (onlySigns_cons_iff.mp htext).2]
    rfl

/-- With its bracket escaped, an arrow is not found in a text with brackets as they are written. -/
theorem replaceAll_escapeAngles_left (hneedle : '<' ∈ needle ∨ '>' ∈ needle)
    (htext : onlySigns text = true) :
    Text.replaceAll (escapeAngles needle) replacement text = text := by
  obtain ⟨c, hc, d, rest, hd, hec⟩ :
      ∃ c ∈ needle, ∃ d rest, d ≠ '#' ∧ escapeAngle c = '&' :: d :: rest := by
    rcases hneedle with h | h
    · exact ⟨_, h, 'l', _, by decide, rfl⟩
    · exact ⟨_, h, 'g', _, by decide, rfl⟩
  obtain ⟨u, v, rfl⟩ := List.append_of_mem hc
  have hletter : ['&', d] <:+: escapeAngles (u ++ c :: v) :=
    ⟨escapeAngles u, rest ++ escapeAngles v, by simp [escapeAngles_cons, hec]⟩
  exact Text.replaceAll_of_not_isInfix fun hocc ↦
    not_infix_of_onlySigns htext hd (hletter.trans hocc)

/-- As it is written, an arrow is not found in a text whose brackets are escaped. -/
theorem replaceAll_escapeAngles_right (hneedle : '<' ∈ needle ∨ '>' ∈ needle) (text : List Char) :
    Text.replaceAll needle replacement (escapeAngles text) = escapeAngles text := by
  obtain ⟨hlt, hgt⟩ := angle_notMem_escapeAngles text
  exact Text.replaceAll_of_not_isInfix fun hocc ↦
    hneedle.elim (fun h ↦ hlt (hocc.subset h)) fun h ↦ hgt (hocc.subset h)

/-! ### All replacements -/

/-- What is to be replaced, with its brackets escaped, and by what. -/
def escapedKey (rule : List Char × List Char) : List Char × List Char :=
  (escapeAngles rule.1, rule.2)

/-- The text with the replacements of a table made, one kind after the other. -/
def replaceEach (table : List (List Char × List Char)) (text : List Char) : List Char :=
  table.foldl (fun t rule ↦ Text.replaceAll rule.1 rule.2 t) text

/-- What is replaced that is not an arrow. -/
def signTable : List (List Char × List Char) :=
  (replacementTable.take 4).map fun rule ↦ (rule.1.toList, rule.2.toList)

/-- The arrows as they are written. -/
def arrowTable : List (List Char × List Char) :=
  (replacementTable.drop 8).map fun rule ↦ (rule.1.toList, rule.2.toList)

/-- The arrows are recognized with their bracket escaped first, then as they are written. -/
theorem map_replacementTable : replacementTable.map (fun rule ↦ (rule.1.toList, rule.2.toList))
    = signTable.map escapedKey ++ (arrowTable.map escapedKey ++ arrowTable) := by
  decide

theorem typeset_eq (text : List Char) : typeset text =
    replaceEach arrowTable (replaceEach (arrowTable.map escapedKey)
      (replaceEach (signTable.map escapedKey) text)) := by
  simp only [replaceEach]
  rw [← List.foldl_append, ← List.foldl_append, ← map_replacementTable, List.foldl_map, typeset]

/-- A rule that recognizes the same before and after escaping, and puts in a sign. -/
structure IsRule (rule : List Char × List Char) : Prop where
  recognizable : IsRecognizable rule.1
  onlySigns : onlySigns rule.2 = true
  escapeAngles : escapeAngles rule.2 = rule.2

theorem isRule_of_mem_tables : ∀ rule ∈ signTable ++ arrowTable, IsRule rule := by
  have h : ∀ rule ∈ signTable ++ arrowTable, IsRecognizable rule.1 ∧
      Substitution.onlySigns rule.2 = true ∧ Substitution.escapeAngles rule.2 = rule.2 := by
    decide
  intro rule hrule
  obtain ⟨hrecognizable, honly, hescape⟩ := h rule hrule
  exact ⟨hrecognizable, honly, hescape⟩

theorem angle_mem_of_mem_arrowTable : ∀ rule ∈ arrowTable, '<' ∈ rule.1 ∨ '>' ∈ rule.1 := by
  decide

section Table

variable {table : List (List Char × List Char)}

theorem onlySigns_replaceEach (htable : ∀ rule ∈ table, IsRule rule) (h : onlySigns text = true) :
    onlySigns (replaceEach table text) = true := by
  induction table generalizing text with
  | nil => exact h
  | cons rule table ih =>
    obtain ⟨hrule, htable⟩ := List.forall_mem_cons.mp htable
    exact ih htable (onlySigns_replaceAll hrule.recognizable hrule.onlySigns h)

theorem replaceEach_escapedKey (htable : ∀ rule ∈ table, IsRule rule) (h : onlySigns text = true) :
    replaceEach (table.map escapedKey) (escapeAngles text)
      = escapeAngles (replaceEach table text) := by
  induction table generalizing text with
  | nil => rfl
  | cons rule table ih =>
    obtain ⟨hrule, htable⟩ := List.forall_mem_cons.mp htable
    rw [List.map_cons, replaceEach, List.foldl_cons, escapedKey,
      replaceAll_escapeAngles hrule.recognizable hrule.escapeAngles h]
    exact ih htable (onlySigns_replaceAll hrule.recognizable hrule.onlySigns h)

theorem replaceEach_escapedKey_left (htable : ∀ rule ∈ table, '<' ∈ rule.1 ∨ '>' ∈ rule.1)
    (h : onlySigns text = true) : replaceEach (table.map escapedKey) text = text := by
  induction table with
  | nil => rfl
  | cons rule table ih =>
    obtain ⟨hrule, htable⟩ := List.forall_mem_cons.mp htable
    rw [List.map_cons, replaceEach, List.foldl_cons, escapedKey,
      replaceAll_escapeAngles_left hrule h]
    exact ih htable

theorem replaceEach_escapeAngles (htable : ∀ rule ∈ table, '<' ∈ rule.1 ∨ '>' ∈ rule.1)
    (text : List Char) : replaceEach table (escapeAngles text) = escapeAngles text := by
  induction table with
  | nil => rfl
  | cons rule table ih =>
    obtain ⟨hrule, htable⟩ := List.forall_mem_cons.mp htable
    rw [replaceEach, List.foldl_cons, replaceAll_escapeAngles_right hrule]
    exact ih htable

end Table

/-- Making the replacements in a text with escaped brackets is escaping what they come to. -/
theorem typeset_escapeAngles (h : onlySigns text = true) :
    typeset (escapeAngles text) = escapeAngles (typeset text) := by
  obtain ⟨hsigns, harrows⟩ := List.forall_mem_append.mp isRule_of_mem_tables
  have hmarked : onlySigns (replaceEach signTable text) = true := onlySigns_replaceEach hsigns h
  have hsign : signTable.map escapedKey = signTable := by decide
  have hidle := replaceEach_escapedKey_left angle_mem_of_mem_arrowTable hmarked
  have hleft : typeset text = replaceEach arrowTable (replaceEach signTable text) := by
    rw [typeset_eq, hsign]
    exact congrArg (replaceEach arrowTable) hidle
  calc typeset (escapeAngles text)
    _ = replaceEach arrowTable (replaceEach (arrowTable.map escapedKey)
          (escapeAngles (replaceEach signTable text))) := by
      rw [typeset_eq]
      exact congrArg (fun t ↦ replaceEach arrowTable (replaceEach (arrowTable.map escapedKey) t))
        (replaceEach_escapedKey hsigns h)
    _ = replaceEach arrowTable
          (escapeAngles (replaceEach arrowTable (replaceEach signTable text))) :=
      congrArg (replaceEach arrowTable) (replaceEach_escapedKey harrows hmarked)
    _ = escapeAngles (typeset text) := by
      rw [replaceEach_escapeAngles angle_mem_of_mem_arrowTable, hleft]

end DocumentMath.Substitution

namespace DocumentMath.SubstitutionSet

open Substitution

/-- `escapeAngles` on strings. -/
def anglesEscaped (s : String) : String :=
  String.ofList (escapeAngles s.toList)

/-- **Replacements recognize the same before and after escaping.** In a text without ampersands,
escaping the special characters and then making the replacements comes to making the replacements
and then escaping the angle brackets that are left. -/
theorem apply_specialCharacters_replacements (attributes? : Option Attributes) (text : String)
    (h : '&' ∉ text.toList) :
    (ofList [.specialCharacters, .replacements]).apply attributes? text
      = anglesEscaped ((ofList [.replacements]).apply attributes? text) := by
  have hboth : (ofList [.specialCharacters, .replacements]).members
      = [.specialCharacters, .replacements] := rfl
  have hone : (ofList [.replacements]).members = [.replacements] := rfl
  rw [apply, hboth, apply, hone, anglesEscaped, String.toList_ofList]
  simp only [List.foldl_cons, List.foldl_nil, Substitution.apply]
  rw [escape_eq_escapeAngles h, typeset_escapeAngles (onlySigns_of_notMem h)]

/-- Arrows that share a bracket or a stroke, and one dot more than an ellipsis has. -/
theorem apply_specialCharacters_replacements_overlapping :
    '&' ∉ "<-> <=> ->> ....".toList ∧
      (ofList [.specialCharacters, .replacements]).apply Option.none "<-> <=> ->> ...."
        = anglesEscaped ((ofList [.replacements]).apply Option.none "<-> <=> ->> ....") ∧
      (ofList [.replacements]).apply Option.none "<-> <=> ->> ...."
        = "<&#8594; <&#8658; &#8594;> &#8230;&#8203;." := by
  have h : '&' ∉ "<-> <=> ->> ....".toList := by decide
  exact ⟨h, apply_specialCharacters_replacements Option.none _ h, by decide +kernel⟩

end DocumentMath.SubstitutionSet
