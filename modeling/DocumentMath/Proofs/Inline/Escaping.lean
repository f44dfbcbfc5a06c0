import DocumentMath.Equation
import DocumentMath.Proofs.Inline.Brackets
import DocumentMath.Proofs.Inline.Settled
import DocumentMath.Proofs.Text.Replacing

/-!
# Any text can be a payload

A text becomes a payload by a backslash in front of each of its closing brackets
(`escapeBrackets`). The search stops at the first bracket without one, so it reads the payload
whole, whatever stands in it and whatever follows (`writtenAt?_of_escapesBrackets`). It does not
stop earlier either: as long as none of the names stands in front, the occurrence is the first cut
of the text (`isCut_of_names_absent`). And making LaTeX of the payload takes the backslashes off
again (`replaceAll_escapeBrackets`), so that what reaches the engine is the text that was meant
(`scan_written`).
-/

namespace DocumentMath.Inline

/-! ### Escaping -/

/-- The text with a backslash in front of each closing bracket. -/
def escapeBrackets (cs : List Char) : List Char :=
  cs.flatMap fun c ↦ if c = ']' then ['\\', ']'] else [c]

/-- `escapeBrackets` on strings. -/
def bracketsEscaped (s : String) : String :=
  String.ofList (escapeBrackets s.toList)

@[simp] theorem escapeBrackets_nil : escapeBrackets [] = [] := rfl

@[simp] theorem escapeBrackets_append (cs ds : List Char) :
    escapeBrackets (cs ++ ds) = escapeBrackets cs ++ escapeBrackets ds :=
  List.flatMap_append

@[simp] theorem escapeBrackets_bracket_cons (cs : List Char) :
    escapeBrackets (']' :: cs) = '\\' :: ']' :: escapeBrackets cs := rfl

theorem escapeBrackets_cons_of_ne {c : Char} (hc : c ≠ ']') (cs : List Char) :
    escapeBrackets (c :: cs) = c :: escapeBrackets cs := by
  rw [escapeBrackets, List.flatMap_cons, if_neg hc]
  rfl

theorem head?_escapeBrackets_ne (cs : List Char) : (escapeBrackets cs).head? ≠ some ']' := by
  cases cs with
  | nil => simp
  | cons c cs =>
    by_cases hc : c = ']'
    · simp [hc]
    · simp [escapeBrackets_cons_of_ne hc, hc]

theorem getLast?_escapeBrackets (cs : List Char) :
    (escapeBrackets cs).getLast? = cs.getLast? := by
  rcases List.eq_nil_or_concat cs with rfl | ⟨cs, c, rfl⟩
  · rfl
  · rw [List.concat_eq_append, escapeBrackets_append, List.getLast?_concat]
    by_cases hc : c = ']'
    · subst hc
      exact List.getLast?_append_of_ne_nil _ (List.cons_ne_nil _ _)
    · rw [escapeBrackets_cons_of_ne hc]
      exact List.getLast?_concat

theorem escapesBrackets_nil : EscapesBrackets [] := by
  intro pre post h
  exact absurd h.symm (List.append_ne_nil_of_right_ne_nil _ (List.cons_ne_nil _ _))

/-- In front of an escaped text may stand anything that is not a closing bracket. -/
theorem EscapesBrackets.cons {c : Char} {cs : List Char} (hc : c ≠ ']') (h : EscapesBrackets cs) :
    EscapesBrackets (c :: cs) := by
  intro pre post heq
  cases pre with
  | nil => exact absurd (List.cons.inj heq).1 hc
  | cons d pre =>
    have hlast := h pre post (List.cons.inj heq).2
    rw [List.getLast?_cons, hlast]
    rfl

theorem EscapesBrackets.bracket_cons {cs : List Char} (h : EscapesBrackets cs) :
    EscapesBrackets ('\\' :: ']' :: cs) := by
  intro pre post heq
  rcases pre with _ | ⟨d, _ | ⟨d', pre⟩⟩
  · cases heq
  · cases heq
    rfl
  · have hlast := h pre post (List.cons.inj (List.cons.inj heq).2).2
    rw [List.getLast?_cons, List.getLast?_cons, hlast]
    rfl

/-- What stands in front counts for nothing, if it has neither brackets nor backslashes. -/
theorem escapesBrackets_append_left_iff {lead cs : List Char} (hbracket : ']' ∉ lead)
    (hbackslash : '\\' ∉ lead) : EscapesBrackets (lead ++ cs) ↔ EscapesBrackets cs := by
  induction lead with
  | nil => rfl
  | cons c lead ih =>
    rw [List.mem_cons, not_or] at hbracket hbackslash
    rw [List.cons_append, ← ih hbracket.2 hbackslash.2]
    refine ⟨fun h pre post heq ↦ ?_, .cons (Ne.symm hbracket.1)⟩
    have hlast := h (c :: pre) post (congrArg _ heq)
    cases pre with
    | nil => exact absurd (Option.some.inj hlast).symm hbackslash.1
    | cons d pre => rwa [List.getLast?_cons_cons] at hlast

/-- What stands behind counts for nothing, if it has no brackets. -/
theorem escapesBrackets_append_right_iff {cs tail : List Char} (htail : ']' ∉ tail) :
    EscapesBrackets (cs ++ tail) ↔ EscapesBrackets cs := by
  refine ⟨fun h pre post heq ↦ ?_, fun h pre post heq ↦ ?_⟩
  · exact h pre (post ++ tail) (by rw [heq, List.append_assoc, List.cons_append])
  · rcases List.append_eq_append_iff.mp heq with ⟨mid, -, hmid⟩ | ⟨mid, hmid, hpost⟩
    · exact absurd (hmid ▸ List.mem_append_right _ List.mem_cons_self) htail
    · cases mid with
      | nil =>
        rw [List.nil_append] at hpost
        exact absurd (hpost ▸ List.mem_cons_self) htail
      | cons c mid =>
        obtain ⟨rfl, -⟩ := List.cons.inj hpost
        exact h pre mid hmid

/-- Every closing bracket of an escaped text stands behind a backslash. -/
theorem escapesBrackets_escapeBrackets (cs : List Char) : EscapesBrackets (escapeBrackets cs) := by
  induction cs with
  | nil => exact escapesBrackets_nil
  | cons c cs ih =>
    by_cases hc : c = ']'
    · subst hc
      exact ih.bracket_cons
    · rw [escapeBrackets_cons_of_ne hc]
      exact ih.cons hc

/-- A text that is not empty and does not end in a backslash can be a payload. -/
theorem isPayload_escapeBrackets {cs : List Char} (hne : cs ≠ [])
    (hlast : cs.getLast? ≠ some '\\') : IsPayload (escapeBrackets cs) := by
  have hsome := List.getLast?_eq_some_getLast hne
  refine ⟨_, (getLast?_escapeBrackets cs).trans hsome, fun heq ↦ hlast ?_⟩
  rw [hsome, heq]

/-! ### Taking the backslashes off -/

/-- Taking the backslashes off gives the text back. -/
theorem replaceAll_escapeBrackets (cs : List Char) :
    Text.replaceAll ['\\', ']'] [']'] (escapeBrackets cs) = cs := by
  induction cs with
  | nil => rfl
  | cons c cs ih =>
    by_cases hc : c = ']'
    · subst hc
      have hfound : escapeBrackets (']' :: cs) = ['\\', ']'] ++ escapeBrackets cs := rfl
      rw [hfound, Text.replaceAll_append_self (List.cons_ne_nil _ _), ih]
      rfl
    · rw [escapeBrackets_cons_of_ne hc, Text.replaceAll_cons_of_not_isPrefix, ih]
      -- a backslash of the text itself is not followed by a bracket any more
      rintro ⟨rest, hrest⟩
      have htail : escapeBrackets cs = ']' :: rest := (List.cons.inj hrest).2.symm
      exact head?_escapeBrackets_ne cs (by rw [htail]; rfl)

theorem trimStart_escapeBrackets (cs : List Char) :
    Text.trimStart (escapeBrackets cs) = escapeBrackets (Text.trimStart cs) := by
  induction cs with
  | nil => rfl
  | cons c cs ih =>
    by_cases hc : c = ']'
    · subst hc
      rfl
    · rw [escapeBrackets_cons_of_ne hc, Text.trimStart, Text.trimStart, List.dropWhile_cons,
        List.dropWhile_cons]
      split
      · exact ih
      · rw [escapeBrackets_cons_of_ne hc]

theorem trimEnd_concat (cs : List Char) (c : Char) :
    Text.trimEnd (cs ++ [c]) = if Text.isBlank c then Text.trimEnd cs else cs ++ [c] := by
  rw [Text.trimEnd, List.reverse_concat, List.dropWhile_cons]
  split
  · rfl
  · rw [List.reverse_cons, List.reverse_reverse]

theorem trimEnd_escapeBrackets (cs : List Char) :
    Text.trimEnd (escapeBrackets cs) = escapeBrackets (Text.trimEnd cs) := by
  -- the blank characters go from the end, one by one
  induction cs using List.reverseRecOn with
  | nil => rfl
  | append_singleton cs c ih =>
    rw [trimEnd_concat, escapeBrackets_append]
    by_cases hc : c = ']'
    · subst hc
      have hbracket : Text.isBlank ']' = false := by decide
      rw [escapeBrackets_bracket_cons, escapeBrackets_nil, List.append_cons, trimEnd_concat,
        hbracket]
      simp
    · rw [escapeBrackets_cons_of_ne hc, escapeBrackets_nil, trimEnd_concat, ih]
      split
      · rfl
      · rw [escapeBrackets_append, escapeBrackets_cons_of_ne hc, escapeBrackets_nil]

/-- Blank characters at the ends are not escaped, and no others get there. -/
theorem trim_escapeBrackets (cs : List Char) :
    Text.trim (escapeBrackets cs) = escapeBrackets (Text.trim cs) := by
  rw [Text.trim, trimStart_escapeBrackets, trimEnd_escapeBrackets, Text.trim]

/-- The LaTeX of a payload that is an escaped text is the text. -/
theorem canonicalLatex_bracketsEscaped (s : String) :
    canonicalLatex .latex (bracketsEscaped s) = Text.trimmed s := by
  simp only [canonicalLatex, bracketsEscaped, String.toList_ofList, trim_escapeBrackets,
    replaceAll_escapeBrackets, Text.trimmed]

/-! ### Finding the occurrence -/

/-- No payload ends at a bracket inside of a text that escapes its brackets. -/
theorem EscapesBrackets.eq_of_isPayload {p q rest rest' : List Char} (h : EscapesBrackets q)
    (hp : IsPayload p) (heq : q ++ ']' :: rest = p ++ ']' :: rest') (hle : p.length ≤ q.length) :
    p = q := by
  obtain ⟨post, rfl⟩ : p <+: q :=
    List.prefix_of_prefix_length_le ⟨_, heq.symm⟩ (List.prefix_append _ _) hle
  cases post with
  | nil => rw [List.append_nil]
  | cons c post =>
    -- the payload would end in front of an escaped bracket, so in a backslash
    rw [List.append_assoc, List.append_cancel_left_eq] at heq
    obtain ⟨rfl, -⟩ := List.cons.inj heq
    obtain ⟨c, hc, hne⟩ := hp
    exact absurd (Option.some.inj (hc.symm.trans (h p post rfl))) hne

/-- A text that could be a payload is read as one, whatever follows, exactly if it escapes its
brackets. -/
theorem payloadAt?_eq_self_iff {q : List Char} (hq : IsPayload q) (hhead : q.head? ≠ some ']')
    (rest : List Char) : payloadAt? (q ++ ']' :: rest) = some q ↔ EscapesBrackets q := by
  constructor
  · rintro hread pre post rfl
    by_contra hlast
    -- what stands in front of the bracket would be a shorter payload
    have hne : pre ≠ [] := by
      rintro rfl
      exact hhead rfl
    have hsome := List.getLast?_eq_some_getLast hne
    have hpre : IsPayload pre := ⟨_, hsome, fun heq ↦ hlast (heq ▸ hsome)⟩
    have hbefore : pre ++ [']'] <+: pre ++ ']' :: post ++ ']' :: rest :=
      ⟨post ++ ']' :: rest, by simp⟩
    obtain ⟨p, hp, hle⟩ := payloadAt?_complete hbefore hpre
    cases hp.symm.trans hread
    rw [List.length_append, List.length_cons] at hle
    omega
  · intro h
    have hprefix : q ++ [']'] <+: q ++ ']' :: rest := ⟨rest, by simp⟩
    obtain ⟨p, hp, hle⟩ := payloadAt?_complete hprefix hq
    obtain ⟨rest', hrest⟩ := payloadAt?_eq hp
    rw [hp, h.eq_of_isPayload (isPayload_of_payloadAt? hp) hrest hle]

/-- A payload without an unescaped bracket is read whole. -/
theorem writtenAt?_of_escapesBrackets {w : Written} (hw : w.IsValid)
    (h : EscapesBrackets w.payload) (rest : List Char) :
    writtenAt? (w.source ++ rest) = some w := by
  obtain ⟨p, hp, hle⟩ := writtenAt?_complete hw (List.prefix_append w.source rest)
  obtain ⟨rest', hrest⟩ := writtenAt?_eq hp
  have hpayload : w.payload ++ ']' :: rest = p ++ ']' :: rest' := by
    simpa [Written.source_eq, Written.mark, Written.body] using hrest
  have hsame : p = w.payload := h.eq_of_isPayload (writtenAt?_isValid hp).payload hpayload hle
  rw [hp, hsame]

/-- Of two cuts of a text at a character, with none in front, the first parts are the same. -/
theorem eq_of_append_cons_eq {as bs xs ys : List Char} {c : Char} (ha : c ∉ as) (hb : c ∉ bs)
    (h : as ++ c :: xs = bs ++ c :: ys) : as = bs := by
  have htake : ∀ {cs : List Char} (ds : List Char), c ∉ cs →
      (cs ++ c :: ds).takeWhile (· != c) = cs := by
    intro cs ds hcs
    have hall : ∀ d ∈ cs, (d != c) = true := fun d hd ↦
      bne_iff_ne.mpr fun heq ↦ hcs (heq ▸ hd)
    rw [List.takeWhile_append_of_pos hall, List.takeWhile_cons_of_neg (by simp), List.append_nil]
  rw [← htake xs ha, h, htake ys hb]

/-- Behind a text in which none of the names stands there is a name with a colon. Then no name with
a colon starts in that text. -/
theorem length_le_of_names_absent {before pre after tail : List Char} {name other : MacroName}
    (hbefore : ∀ name : MacroName, ¬name.chars <:+: before)
    (h : before ++ (name.chars ++ ':' :: after) = pre ++ (other.chars ++ ':' :: tail)) :
    before.length ≤ pre.length := by
  by_contra hlt
  rw [Nat.not_le] at hlt
  obtain ⟨mid, rfl⟩ : pre <+: before :=
    List.prefix_of_prefix_length_le ⟨_, h.symm⟩ (List.prefix_append _ _) (Nat.le_of_lt hlt)
  rw [List.append_assoc, List.append_cancel_left_eq] at h
  by_cases hcolon : ':' ∈ mid
  · -- the other name ends in front of the first colon
    obtain ⟨front, back, rfl, hfront⟩ := List.eq_append_cons_of_mem hcolon
    rw [List.append_assoc, List.cons_append] at h
    obtain rfl := eq_of_append_cons_eq hfront (colon_not_mem_chars other) h
    exact hbefore other ⟨pre, ':' :: back, List.append_assoc _ _ _⟩
  · -- the other name ends in this one
    rw [← List.append_assoc] at h
    have hname : mid ++ name.chars = other.chars := by
      refine eq_of_append_cons_eq ?_ (colon_not_mem_chars other) h
      exact fun hmem ↦ (List.mem_append.mp hmem).elim hcolon (colon_not_mem_chars name)
    rw [← chars_eq_of_suffix ⟨mid, hname⟩] at hname
    rw [List.append_left_eq_self.mp hname, List.append_nil] at hlt
    exact Nat.lt_irrefl _ hlt

/-- An equation behind a text in which none of the names stands is the first, unless it would be
escaped by the end of that text. -/
theorem isCut_of_names_absent {before rest : List Char} {w : Written}
    (hbefore : ∀ name : MacroName, ¬name.chars <:+: before)
    (hlast : before.getLast? ≠ some '\\') (hesc : w.escaped = false)
    (hread : writtenAt? (w.source ++ rest) = some w) :
    IsCut (before ++ w.source ++ rest) before w rest := by
  refine ⟨rfl, hread, fun pre post hlt htext ↦ ?_⟩
  rw [writtenAt?_eq_none_iff]
  rintro v - ⟨tail, rfl⟩
  have hplace : before ++ (w.name.chars ++ ':' :: (w.subs ++ '[' :: (w.payload ++ [']']) ++ rest))
      = pre ++ v.mark
        ++ (v.name.chars ++ ':' :: (v.subs ++ '[' :: (v.payload ++ [']']) ++ tail)) := by
    simpa [Written.source_eq, Written.mark, hesc, Written.body] using htext
  have hle := length_le_of_names_absent hbefore hplace
  -- only a backslash at the end of the text in front is left
  cases hv : v.escaped with
  | false =>
    rw [Written.mark, hv, if_neg Bool.false_ne_true, List.append_nil] at hle
    omega
  | true =>
    rw [Written.mark, hv, if_pos rfl] at hle hplace
    have hlen : before.length = (pre ++ ['\\']).length := by
      rw [List.length_append, List.length_singleton] at hle ⊢
      omega
    obtain rfl := (List.append_inj hplace hlen).1
    exact hlast List.getLast?_concat

/-- The first occurrence of a text is what is read at its first cut. -/
theorem IsCut.head?_scan {text : String} {gap rest : List Char} {w : Written}
    (h : IsCut text.toList gap w rest) (default : Dialect) :
    (scan default text).head? = some (w.occurrence default (Text.utf8Length gap)) := by
  rcases pieces_cases text.toList with ⟨hfree, -⟩ | ⟨gap', w', rest', hcut, hpieces⟩
  · have hnone := hfree gap (w.source ++ rest) (by rw [h.text, List.append_assoc])
    rw [h.read] at hnone
    cases hnone
  · obtain ⟨rfl, rfl, rfl⟩ := (isNext_of_isCut h).unique (isNext_of_isCut hcut)
    rw [scan_eq_occurrences, occurrences, hpieces, occurrencesOf_map_plain_append, Nat.zero_add,
      occurrencesOf, List.head?_cons]

/-! ### Main result -/

/-- The inline equation that has a text as its payload. -/
def Written.ofText (name : MacroName) (subs text : List Char) : Written :=
  ⟨false, name, subs, escapeBrackets text⟩

/-- What the equation of a text is written as. -/
def written (name : MacroName) (subs text : String) : String :=
  name.text ++ ":" ++ subs ++ "[" ++ bracketsEscaped text ++ "]"

theorem toList_written (name : MacroName) (subs text : String) :
    (written name subs text).toList = (Written.ofText name subs.toList text.toList).source := by
  simp [written, Written.ofText, Written.source, Written.body, bracketsEscaped, MacroName.chars]

/-- The occurrence of the equation of a text, with a text in front of it. -/
theorem describes_ofText (default : Dialect) (name : MacroName) (before subs text : String) :
    Occurrence.Describes default before.toList (.ofText name subs.toList text.toList) {
      name := name
      dialect := name.dialect default
      payload := bracketsEscaped text
      subs := if subs = "" then none else some subs
      escaped := false
      start := before.utf8ByteSize
      stop := (before ++ written name subs text).utf8ByteSize } where
  name := rfl
  dialect := rfl
  payload := rfl
  subs := by simp [Written.ofText]
  escaped := rfl
  start := by rw [String.ofList_toList]
  stop := by rw [← toList_written, ← String.toList_append, String.ofList_toList]

/-- **Any text can be written as a payload.** With a backslash in front of each closing bracket, a
text that is not empty and does not end in a backslash is the payload of the first occurrence that
is found, under each name and with each list of substitutions, behind any text without the names
and in front of any text. And the LaTeX of the payload is the text, trimmed. -/
theorem scan_written (default : Dialect) (name : MacroName) (before subs text after : String)
    (hbefore : ∀ name : MacroName, ¬name.text.toList <:+: before.toList)
    (hlastBefore : before.toList.getLast? ≠ some '\\')
    (hsubs : ∀ c ∈ subs.toList, c = ',' ∨ 'a' ≤ c ∧ c ≤ 'z')
    (hne : text ≠ "") (hlast : text.toList.getLast? ≠ some '\\') :
    (scan default (before ++ written name subs text ++ after)).head? = some {
        name := name
        dialect := name.dialect default
        payload := bracketsEscaped text
        subs := if subs = "" then none else some subs
        escaped := false
        start := before.utf8ByteSize
        stop := (before ++ written name subs text).utf8ByteSize } ∧
      canonicalLatex .latex (bracketsEscaped text) = Text.trimmed text := by
  refine ⟨?_, canonicalLatex_bracketsEscaped text⟩
  have hvalid : (Written.ofText name subs.toList text.toList).IsValid :=
    ⟨hsubs, isPayload_escapeBrackets (mt String.toList_eq_nil_iff.mp hne) hlast⟩
  have hread := writtenAt?_of_escapesBrackets hvalid (escapesBrackets_escapeBrackets _) after.toList
  have hcut := isCut_of_names_absent hbefore hlastBefore rfl hread
  rw [← toList_written, ← String.toList_append, ← String.toList_append] at hcut
  rw [hcut.head?_scan default]
  exact congrArg some ((Written.describes_occurrence default before.toList _).unique
    (describes_ofText default name before subs text))

/-- A text with brackets, backslashes and another equation in it, between texts that have some of
these as well. -/
theorem scan_written_nested :
    (∀ name : MacroName, ¬name.text.toList <:+: "ste\\[] ".toList) ∧
      "ste\\[] ".toList.getLast? ≠ some '\\' ∧
      (∀ c ∈ "c,a".toList, c = ',' ∨ 'a' ≤ c ∧ c ≤ 'z') ∧
      " [0,1\\] \\stem:[x]] " ≠ "" ∧
      " [0,1\\] \\stem:[x]] ".toList.getLast? ≠ some '\\' ∧
      (scan .latex ("ste\\[] " ++ written .latexmath "c,a" " [0,1\\] \\stem:[x]] "
          ++ "] stem:[y]")).head? = some {
        name := .latexmath
        dialect := .latex
        payload := " [0,1\\\\] \\stem:[x\\]\\] "
        subs := some "c,a"
        escaped := false
        start := 7
        stop := 44 } ∧
      canonicalLatex .latex " [0,1\\\\] \\stem:[x\\]\\] " = "[0,1\\] \\stem:[x]]" := by
  have hbefore : ∀ name : MacroName, ¬name.text.toList <:+: "ste\\[] ".toList := by
    intro name
    rw [← Text.occursIn_iff]
    cases name <;> decide +kernel
  have hsubs : ∀ c ∈ "c,a".toList, c = ',' ∨ 'a' ≤ c ∧ c ≤ 'z' := by
    have hall : "c,a".toList.all isSubsChar = true := by decide +kernel
    exact fun c hc ↦ isSubsChar_iff.mp (List.all_eq_true.mp hall c hc)
  have h := scan_written .latex .latexmath "ste\\[] " "c,a" " [0,1\\] \\stem:[x]] " "] stem:[y]"
    hbefore (by decide +kernel) hsubs (by decide +kernel) (by decide +kernel)
  have hescaped : bracketsEscaped " [0,1\\] \\stem:[x]] " = " [0,1\\\\] \\stem:[x\\]\\] " := by
    decide +kernel
  have hstart : "ste\\[] ".utf8ByteSize = 7 := by decide +kernel
  have hstop : ("ste\\[] "
      ++ written .latexmath "c,a" " [0,1\\] \\stem:[x]] ").utf8ByteSize = 44 := by decide +kernel
  have htrimmed : Text.trimmed " [0,1\\] \\stem:[x]] " = "[0,1\\] \\stem:[x]]" := by decide +kernel
  rw [hescaped, hstart, hstop, htrimmed] at h
  exact ⟨hbefore, by decide +kernel, hsubs, by decide +kernel, by decide +kernel, h⟩

end DocumentMath.Inline
