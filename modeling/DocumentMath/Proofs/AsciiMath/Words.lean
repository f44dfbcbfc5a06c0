import DocumentMath.Proofs.AsciiMath.Marks

/-!
# Control words in LaTeX

A control word is a backslash with letters behind it, as many as there are (`controlWords`). So the
words of two texts that are put together are those of both, unless the first ends within a control
word and the second begins with a letter (`controlWords_append`). `push` puts a blank between the
two then, but it sees only a control word that `endsWithControlWord` finds; the texts for which that
is enough are those with `ShowsEnd`.

`spelledWords` are the control words of the symbols and of the writer. A word that is none of them
is *stray*: some control word has run into letters.
-/

namespace DocumentMath.AsciiMath

/-! ### Control words -/

/-- The control word that a character names with what stands behind it, if it does. -/
def wordAt (c : Char) (cs : List Char) : List (List Char) :=
  if c = '\\' ∧ cs.takeWhile isLetter ≠ [] then [cs.takeWhile isLetter] else []

/-- The control words of a text, from left to right: the letters behind each backslash. -/
def controlWords : List Char → List (List Char)
  | [] => []
  | c :: cs => wordAt c cs ++ controlWords cs

/-- Whether a text ends with a backslash and letters, or with a backslash. -/
def endsWithin : List Char → Bool
  | [] => false
  | c :: cs => (c == '\\' && cs.all isLetter) || endsWithin cs

theorem isLetter_backslash : isLetter '\\' = false := by decide

theorem wordAt_of_ne {c : Char} (h : c ≠ '\\') (cs : List Char) : wordAt c cs = [] :=
  if_neg fun hc ↦ h hc.1

theorem wordAt_backslash (cs : List Char) (h : cs.takeWhile isLetter ≠ []) :
    wordAt '\\' cs = [cs.takeWhile isLetter] :=
  if_pos ⟨rfl, h⟩

theorem controlWords_of_not_mem {cs : List Char} (h : '\\' ∉ cs) : controlWords cs = [] := by
  induction cs with
  | nil => rfl
  | cons c cs ih =>
    rw [List.mem_cons, not_or] at h
    rw [controlWords, wordAt_of_ne (Ne.symm h.1), ih h.2, List.nil_append]

theorem not_mem_of_all_isLetter {cs : List Char} (h : ∀ c ∈ cs, isLetter c = true) : '\\' ∉ cs :=
  fun hmem ↦ by
    have hletter := h _ hmem
    rw [isLetter_backslash] at hletter
    cases hletter

theorem endsWithin_of_not_mem {cs : List Char} (h : '\\' ∉ cs) : endsWithin cs = false := by
  induction cs with
  | nil => rfl
  | cons c cs ih =>
    rw [List.mem_cons, not_or] at h
    rw [endsWithin, ih h.2, Bool.or_false, Bool.and_eq_false_iff]
    exact .inl (beq_eq_false_iff_ne.mpr (Ne.symm h.1))

theorem endsWithin_append (cs ds : List Char) :
    endsWithin (cs ++ ds) = (endsWithin ds || (ds.all isLetter && endsWithin cs)) := by
  induction cs with
  | nil => rw [List.nil_append, endsWithin, Bool.and_false, Bool.or_false]
  | cons c cs ih =>
    rw [List.cons_append, endsWithin, endsWithin, ih, List.all_append]
    cases endsWithin ds <;> cases ds.all isLetter <;> simp

/-- The control words of two texts stay what they are when the texts are put together, unless
letters come behind a control word. -/
theorem controlWords_append {cs ds : List Char}
    (h : (∀ c ∈ ds.head?, isLetter c = false) ∨ endsWithin cs = false) :
    controlWords (cs ++ ds) = controlWords cs ++ controlWords ds := by
  induction cs with
  | nil => rfl
  | cons c cs ih =>
    have hword : wordAt c (cs ++ ds) = wordAt c cs := by
      by_cases hc : c = '\\'
      · have htake : (cs ++ ds).takeWhile isLetter = cs.takeWhile isLetter := by
          rcases h with hhead | hends
          · exact takeWhile_isLetter_append (.inl hhead)
          · rw [List.takeWhile_append, if_neg]
            -- all of the first text would be letters behind the backslash
            intro hlength
            have hall : cs.all isLetter = true := by
              rw [List.all_eq_true, ← (List.takeWhile_prefix isLetter).eq_of_length hlength]
              exact fun c hmem ↦ List.mem_takeWhile_imp hmem
            rw [endsWithin, hc, hall] at hends
            cases hends
        rw [wordAt, wordAt, htake]
      · rw [wordAt_of_ne hc, wordAt_of_ne hc]
    have hends : (∀ c ∈ ds.head?, isLetter c = false) ∨ endsWithin cs = false :=
      h.imp_right fun hends ↦ (Bool.or_eq_false_iff.mp hends).2
    rw [List.cons_append, controlWords, controlWords, hword, ih hends, List.append_assoc]

/-- Letters behind a control word make it longer. -/
theorem controlWords_run {word : List Char} (hword : ∀ c ∈ word, isLetter c = true)
    (hne : word ≠ []) (ds : List Char) :
    controlWords ('\\' :: word ++ ds) = (word ++ ds.takeWhile isLetter) :: controlWords ds := by
  have htake : (word ++ ds).takeWhile isLetter = word ++ ds.takeWhile isLetter :=
    List.takeWhile_append_of_pos hword
  have hslash := not_mem_of_all_isLetter hword
  rw [List.cons_append, controlWords, wordAt_backslash, htake,
    controlWords_append (.inr (endsWithin_of_not_mem hslash)), controlWords_of_not_mem hslash]
  · rfl
  · rw [htake]
    exact List.append_ne_nil_of_left_ne_nil hne _

/-! ### Pushing -/

/-- Where letters would go on with a control word at the end of a text, it is one that is found. -/
def ShowsEnd (cs : List Char) : Prop :=
  endsWithin cs = true → endsWithControlWord cs = true

namespace ShowsEnd

variable {cs ds : List Char}

theorem nil : ShowsEnd [] := fun h ↦ by cases h

theorem of_not_mem (h : '\\' ∉ cs) : ShowsEnd cs := fun hends ↦ by
  rw [endsWithin_of_not_mem h] at hends
  cases hends

/-- No backslash stands at the end, since a control word that is found has letters. -/
theorem last (h : ShowsEnd cs) : cs.getLast? ≠ some '\\' := by
  intro hlast
  obtain ⟨before, rfl⟩ := List.getLast?_eq_some_iff.mp hlast
  have hends : endsWithin (before ++ ['\\']) = true := by
    rw [endsWithin_append]
    rfl
  obtain ⟨before', word, heq, hne, hletters, -⟩ := endsWithControlWord_iff.mp (h hends)
  have hmem : '\\' ∈ word := by
    have hlast' : (before' ++ '\\' :: word).getLast? = word.getLast? := by
      rw [List.getLast?_append, List.getLast?_cons]
      cases hword : word.getLast? with
      | none => exact absurd (List.getLast?_eq_none_iff.mp hword) hne
      | some c => rfl
    rw [← heq, hlast] at hlast'
    exact List.mem_of_getLast? hlast'.symm
  exact not_mem_of_all_isLetter hletters hmem

theorem append (hcs : ShowsEnd cs) (hds : ShowsEnd ds)
    (h : (∀ c ∈ ds.head?, isLetter c = false) ∨ endsWithin cs = false) : ShowsEnd (cs ++ ds) := by
  intro hends
  cases ds with
  | nil =>
    rw [List.append_nil] at hends ⊢
    exact hcs hends
  | cons d ds =>
    rw [endsWithin_append, Bool.or_eq_true, Bool.and_eq_true] at hends
    rcases hends with hends | ⟨hall, hends⟩
    · exact endsWithControlWord_append hcs.last (hds hends)
    · rcases h with hhead | hclosed
      · rw [List.all_cons, hhead d rfl] at hall
        cases hall
      · rw [hclosed] at hends
        cases hends

/-- A control word with letters behind it is found as well. -/
theorem run {word : List Char} (hword : ∀ c ∈ word, isLetter c = true) (hne : word ≠ [])
    (hds : ShowsEnd ds) : ShowsEnd ('\\' :: word ++ ds) := by
  intro hends
  cases hall : ds.all isLetter with
  | true =>
    refine endsWithControlWord_iff.mpr ⟨[], word ++ ds, rfl, ?_, ?_, by simp⟩
    · exact List.append_ne_nil_of_left_ne_nil hne _
    · exact List.forall_mem_append.mpr ⟨hword, List.all_eq_true.mp hall⟩
  | false =>
    rw [endsWithin_append, hall, Bool.false_and, Bool.or_false] at hends
    refine endsWithControlWord_append (fun hlast ↦ ?_) (hds hends)
    rw [List.getLast?_cons, Option.some.injEq] at hlast
    cases hlast' : word.getLast? with
    | none => exact hne (List.getLast?_eq_none_iff.mp hlast')
    | some c =>
      rw [hlast', Option.getD_some] at hlast
      exact not_mem_of_all_isLetter hword (hlast ▸ List.mem_of_getLast? hlast')

/-- A piece that is pushed does not go on with a control word. -/
theorem push (hcs : ShowsEnd cs) (hds : ShowsEnd ds) :
    ShowsEnd (push cs ds) ∧
      controlWords (AsciiMath.push cs ds) = controlWords cs ++ controlWords ds := by
  unfold AsciiMath.push
  split
  · exact ⟨hcs, (List.append_nil _).symm⟩
  · next c rest =>
    split
    · have hspace : ∀ d ∈ (' ' :: c :: rest).head?, isLetter d = false := by
        rintro d ⟨⟩
        decide
      have hblank : '\\' ∉ [' '] := by decide
      refine ⟨hcs.append ?_ (.inl hspace), controlWords_append (.inl hspace)⟩
      exact (of_not_mem hblank).append hds (.inr (endsWithin_of_not_mem hblank))
    · next hc =>
      have hborder : (∀ d ∈ (c :: rest).head?, isLetter d = false) ∨ endsWithin cs = false := by
        rw [Bool.and_eq_true, not_and_or, Bool.not_eq_true] at hc
        refine hc.imp ?_ fun hends ↦ Bool.eq_false_iff.mpr (mt hcs hends)
        rintro hletter d ⟨⟩
        exact hletter
      exact ⟨hcs.append hds hborder, controlWords_append hborder⟩

end ShowsEnd

/-! ### Stray words -/

/-- The texts in LaTeX that a symbol stands for. -/
def Role.texts : Role → List (List Char)
  | constant latex | leftBracket latex | rightBracket latex | textual latex => [latex]
  | unary (.command latex) | binary (.command latex) => [latex]
  | unary (.delimited opening closing) => [opening, closing]
  | binary .root | binary .color | sub | sup | divide => []

/-- The texts in LaTeX that are written around what symbols stand for. -/
def writerTexts : List String :=
  ["\\text", "\\left", "\\right", "\\begin", " \\end", "\\sqrt[", "\\color", "\\frac", " \\\\ "]

/-- The control words that are spelled out, in the table of symbols or by the writer. -/
def spelledWords : List (List Char) :=
  (symbols.flatMap (·.role.texts) ++ writerTexts.map String.toList).flatMap controlWords

theorem mem_spelledWords_of_symbol {s : Symbol} (hs : s ∈ symbols) {text : List Char}
    (htext : text ∈ s.role.texts) {word : List Char} (h : word ∈ controlWords text) :
    word ∈ spelledWords :=
  List.mem_flatMap.mpr ⟨text, List.mem_append_left _ (List.mem_flatMap.mpr ⟨s, hs, htext⟩), h⟩

theorem mem_spelledWords_of_writer {text : String} (htext : text ∈ writerTexts) {word : List Char}
    (h : word ∈ controlWords text.toList) : word ∈ spelledWords :=
  List.mem_flatMap.mpr ⟨_, List.mem_append_right _ (List.mem_map_of_mem htext), h⟩

/-- The control words of a text that are not spelled out anywhere. -/
def strayWords (cs : List Char) : List (List Char) :=
  (controlWords cs).filter (· ∉ spelledWords)

/-- A control word with letters behind it is stray, unless the longer word is spelled out. -/
theorem strayWords_run {word : List Char} (hword : ∀ c ∈ word, isLetter c = true)
    (hne : word ≠ []) (ds : List Char) :
    strayWords ('\\' :: word ++ ds)
      = (if word ++ ds.takeWhile isLetter ∈ spelledWords then []
          else [word ++ ds.takeWhile isLetter]) ++ strayWords ds := by
  rw [strayWords, controlWords_run hword hne, List.filter_cons, strayWords]
  by_cases hmem : word ++ ds.takeWhile isLetter ∈ spelledWords
  · rw [if_neg (by rw [decide_eq_true_eq]; exact fun hnot ↦ hnot hmem), if_pos hmem]
    rfl
  · rw [if_pos (decide_eq_true hmem), if_neg hmem]
    rfl

/-- A text can be put together with others, and these are its stray words. -/
structure Strays (cs : List Char) (words : List (List Char)) : Prop where
  shows : ShowsEnd cs
  words : strayWords cs = words

namespace Strays

variable {cs ds : List Char} {words words' : List (List Char)}

theorem nil : Strays [] [] := ⟨.nil, rfl⟩

theorem of_not_mem (h : '\\' ∉ cs) : Strays cs [] :=
  ⟨.of_not_mem h, by rw [strayWords, controlWords_of_not_mem h, List.filter_nil]⟩

theorem append (hcs : Strays cs words) (hds : Strays ds words')
    (h : (∀ c ∈ ds.head?, isLetter c = false) ∨ endsWithin cs = false) :
    Strays (cs ++ ds) (words ++ words') := by
  refine ⟨hcs.shows.append hds.shows h, ?_⟩
  rw [strayWords, controlWords_append h, List.filter_append, ← hcs.words, ← hds.words]
  rfl

theorem of_spelled (hshows : ShowsEnd cs) (h : ∀ word ∈ controlWords cs, word ∈ spelledWords) :
    Strays cs [] := by
  refine ⟨hshows, List.filter_eq_nil_iff.mpr fun word hword hnot ↦ ?_⟩
  exact of_decide_eq_true hnot (h word hword)

theorem push (hcs : Strays cs words) (hds : Strays ds words') :
    Strays (push cs ds) (words ++ words') := by
  obtain ⟨hshows, hwords⟩ := hcs.shows.push hds.shows
  refine ⟨hshows, ?_⟩
  rw [strayWords, hwords, List.filter_append, ← hcs.words, ← hds.words]
  rfl

/-- Braces keep apart what is in them. -/
theorem braced (h : Strays cs words) : Strays (braced cs) words := by
  have hclose : Strays (cs ++ ['\x7d']) words := by
    have hlast : '\\' ∉ ['\x7d'] := by decide
    have happend := h.append (of_not_mem hlast) (.inl (by rintro c ⟨⟩; decide))
    rwa [List.append_nil] at happend
  have hfirst : '\\' ∉ ['\x7b'] := by decide
  exact (of_not_mem hfirst).append hclose (.inr (endsWithin_of_not_mem hfirst))

theorem append_braced (hcs : Strays cs words) (hds : Strays ds words') :
    Strays (cs ++ AsciiMath.braced ds) (words ++ words') :=
  hcs.append hds.braced (.inl (by rintro c ⟨⟩; decide))

end Strays

/-- Whether a control word at the end of a text is found. -/
def showsEnd (cs : List Char) : Bool :=
  !endsWithin cs || endsWithControlWord cs

theorem showsEnd_iff {cs : List Char} : showsEnd cs = true ↔ ShowsEnd cs := by
  rw [showsEnd, ShowsEnd, Bool.or_eq_true, Bool.not_eq_true', ← Bool.not_eq_true, imp_iff_not_or]

theorem strays_of_mem_writerTexts {text : String} (h : text ∈ writerTexts) :
    Strays text.toList [] := by
  have hshows : ∀ text ∈ writerTexts, showsEnd text.toList = true := by
    decide +kernel
  exact .of_spelled (showsEnd_iff.mp (hshows text h)) fun _ ↦ mem_spelledWords_of_writer h

end DocumentMath.AsciiMath
