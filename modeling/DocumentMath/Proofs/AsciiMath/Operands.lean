import DocumentMath.Proofs.AsciiMath.Weight

/-!
# No operand is lost, and none is doubled

A digit, and a character outside ASCII that is not blank, stands for itself alone: no symbol is
written with one, no symbol stands for one, and none is written beside what has been read. So each
of these characters occurs in the LaTeX of a text as often as in the text (`count_toLatex`).

The proof has two halves. Every phrase takes as many of them off the text as it keeps
(`Reads.count_eq`), and every expression is written with as many as it keeps
(`Expr.IsClear.count_emit`).
-/

namespace DocumentMath.AsciiMath

/-! ### Characters that stand for themselves -/

/-- Whether a character stands for itself alone: a digit of ASCII, or a character outside ASCII that
is not blank. -/
def isOperand (c : Char) : Bool :=
  isDigit c || (128 ≤ c.toNat && !Text.isBlank c)

/-- Whether a text has no such characters. -/
def isClear (cs : List Char) : Bool :=
  cs.all (!isOperand ·)

theorem isBlank_of_isOperand {c : Char} (h : isOperand c = true) : Text.isBlank c = false := by
  rw [isOperand, Bool.or_eq_true, Bool.and_eq_true, Bool.not_eq_true'] at h
  rcases h with hdigit | ⟨-, hblank⟩
  · rw [isDigit, Bool.and_eq_true, decide_eq_true_iff, decide_eq_true_iff] at hdigit
    have hlow : 48 ≤ c.toNat := hdigit.1
    have hhigh : c.toNat ≤ 57 := hdigit.2
    simp only [Text.isBlank, Bool.or_eq_false_iff, Bool.and_eq_false_iff, decide_eq_false_iff_not,
      beq_eq_false_iff_ne]
    omega
  · exact hblank

section Clear

variable {cs : List Char} {c : Char}

theorem count_of_isClear (h : isClear cs = true) (hc : isOperand c = true) : cs.count c = 0 := by
  refine List.count_eq_zero.mpr fun hmem ↦ ?_
  have hnot := List.all_eq_true.mp h c hmem
  rw [hc] at hnot
  cases hnot

/-- A character that stands for itself differs from any other. -/
theorem ne_of_isOperand {d : Char} (hc : isOperand c = true) (hd : isOperand d = false) :
    d ≠ c := by
  rintro rfl
  rw [hd] at hc
  cases hc

end Clear

/-! ### Tokens -/

/-- What is kept of the text in a token. -/
def Token.kept : Token → List Char
  | .quoted text => text
  | .number digits => digits
  | .symbol _ => []
  | .character c => [c]

/-- Whether neither the symbol as it is written nor its LaTeX has a character that stands for
itself. -/
def Role.looksClear : Role → Bool
  | constant latex | leftBracket latex | rightBracket latex | textual latex => isClear latex
  | unary (.command word) | binary (.command word) => isClear word
  | unary (.delimited opening closing) => isClear opening && isClear closing
  | binary .root | binary .color | sub | sup | divide => true

theorem isClear_symbols :
    ∀ s ∈ symbols, isClear s.input = true ∧ s.role.looksClear = true := by
  decide +kernel

theorem isPrefixOf_of_lookup? {text : List Char} {s : Symbol} (h : lookup? text = some s) :
    s.input <+: text := by
  rcases mem_of_foldl_longer h with hnone | hmem
  · cases hnone
  · exact List.isPrefixOf_iff_prefix.mp (List.mem_filter.mp hmem).2

section Tokens

variable {c : Char} {cs rest : List Char} {t : Token}

theorem count_trimStart (hc : isOperand c = true) (cs : List Char) :
    (Text.trimStart cs).count c = cs.count c := by
  have hblank : (cs.takeWhile Text.isBlank).count c = 0 := by
    refine List.count_eq_zero.mpr fun hmem ↦ ?_
    have htrue := List.mem_takeWhile_imp hmem
    rw [isBlank_of_isOperand hc] at htrue
    cases htrue
  conv_rhs => rw [← List.takeWhile_append_dropWhile (p := Text.isBlank) (l := cs)]
  rw [List.count_append, hblank, Nat.zero_add]
  rfl

theorem count_trim (hc : isOperand c = true) (cs : List Char) :
    (Text.trim cs).count c = cs.count c := by
  rw [Text.trim, Text.trimEnd, List.count_reverse, ← count_trimStart hc cs,
    ← List.count_reverse (l := Text.trimStart cs)]
  exact count_trimStart hc _

theorem count_of_next?_eq_none (hc : isOperand c = true) (h : next? cs = none) :
    cs.count c = 0 := by
  refine List.count_eq_zero.mpr fun hmem ↦ ?_
  have hblank := next?_eq_none_iff.mp h c hmem
  rw [isBlank_of_isOperand hc] at hblank
  cases hblank

/-- The closing quotation mark does not count. -/
theorem count_drop_dropWhile_quote (hc : isOperand c = true) (cs : List Char) :
    ((cs.dropWhile (· ≠ quote)).drop 1).count c = (cs.dropWhile (· ≠ quote)).count c := by
  rcases hdrop : cs.dropWhile (· ≠ quote) with _ | ⟨d, ds⟩
  · rfl
  · have hquote := List.head?_dropWhile_not (· ≠ quote) cs
    rw [hdrop] at hquote
    have hne : d ≠ c := ne_of_isOperand hc (by rw [show d = quote by simpa using hquote]; decide)
    rw [List.count_cons_of_ne hne]
    rfl

theorem count_tokenAt (hc : isOperand c = true) (d : Char) (cs : List Char) :
    (d :: cs).count c = (tokenAt d cs).1.kept.count c + (tokenAt d cs).2.count c := by
  unfold tokenAt
  split
  · next hquote =>
    have hsplit : cs.takeWhile (· ≠ quote) ++ cs.dropWhile (· ≠ quote) = cs :=
      List.takeWhile_append_dropWhile
    have hne : d ≠ c := ne_of_isOperand hc (by rw [hquote]; decide)
    show (d :: cs).count c = (cs.takeWhile (· ≠ quote)).count c
      + ((cs.dropWhile (· ≠ quote)).drop 1).count c
    rw [count_drop_dropWhile_quote hc, ← List.count_append, hsplit, List.count_cons_of_ne hne]
  split
  · conv_lhs => rw [← numberAt_append (d :: cs)]
    exact List.count_append
  split
  · next s hfound =>
    have hclear := (isClear_symbols s (mem_symbols_of_lookup? hfound)).1
    conv_lhs => rw [List.prefix_append_drop (isPrefixOf_of_lookup? hfound)]
    rw [List.count_append, count_of_isClear hclear hc]
    rfl
  · rw [← List.singleton_append, List.count_append]
    rfl

theorem count_of_next? (hc : isOperand c = true) (h : next? cs = some (t, rest)) :
    cs.count c = t.kept.count c + rest.count c := by
  unfold next? at h
  split at h
  · cases h
  · next d cs' htrim =>
    have htoken := count_tokenAt hc d cs'
    rwa [Option.some.inj h, ← htrim, count_trimStart hc] at htoken

/-- A symbol keeps nothing. -/
theorem count_of_next?_symbol {s : Symbol} (hc : isOperand c = true)
    (h : next? cs = some (.symbol s, rest)) : cs.count c = rest.count c :=
  (count_of_next? hc h).trans (Nat.zero_add _)

theorem count_rawGroupFrom (hc : isOperand c = true) (depth : Nat) (cs : List Char) :
    cs.count c = (rawGroupFrom depth cs).1.count c + (rawGroupFrom depth cs).2.count c := by
  have hopen : '(' ≠ c := ne_of_isOperand hc (by decide)
  have hclose : ')' ≠ c := ne_of_isOperand hc (by decide)
  fun_induction rawGroupFrom depth cs with
  | case1 => rfl
  | case2 depth cs raw rest hraw ih =>
    rw [List.count_cons_of_ne hopen, List.count_cons_of_ne hopen, ih, hraw]
  | case3 cs => rw [List.count_cons_of_ne hclose, List.count_nil, Nat.zero_add]
  | case4 depth cs raw rest hraw ih =>
    rw [List.count_cons_of_ne hclose, List.count_cons_of_ne hclose, ih, hraw]
  | case5 depth d cs _ _ _ raw rest hraw ih =>
    rw [List.count_cons, List.count_cons, ih, hraw, Nat.add_right_comm]

theorem count_of_rawGroup? {raw : List Char} (hc : isOperand c = true)
    (h : rawGroup? cs = some (raw, rest)) : cs.count c = raw.count c + rest.count c := by
  have hopen : '(' ≠ c := ne_of_isOperand hc (by decide)
  unfold rawGroup? at h
  split at h
  · next cs' htrim =>
    have hraw := count_rawGroupFrom hc 0 cs'
    rwa [Option.some.inj h, ← List.count_cons_of_ne hopen, ← htrim, count_trimStart hc] at hraw
  · cases h

end Tokens

/-! ### Reading -/

/-- How often a character that stands for itself is kept in the atoms and texts of an expression. -/
def Weights.count (c : Char) (h : isOperand c = true) : Weights where
  atom text := text.count c
  verbatim raw := raw.count c
  unclosed := 0
  comma := count_of_isClear (by decide) h

section Symbols

variable {c : Char} {cs rest input latex : List Char} (hc : isOperand c = true)

include hc

theorem count_of_atom? {t : Token} {text : List Char} (h : next? cs = some (t, rest))
    (hatom : t.atom? = some text) : text.count c = t.kept.count c := by
  cases t with
  | quoted => cases hatom
  | number | character =>
    cases hatom
    rfl
  | symbol s =>
    have hclear := (isClear_symbols s (mem_symbols_of_next? h)).2
    obtain ⟨input, role⟩ := s
    cases role with
    | constant =>
      cases hatom
      exact count_of_isClear hclear hc
    | sub | sup | divide =>
      cases hatom
      exact count_of_isClear (by decide) hc
    | _ => cases hatom

theorem count_of_rightBracket
    (h : next? cs = some (.symbol ⟨input, .rightBracket latex⟩, rest)) : latex.count c = 0 :=
  count_of_isClear (isClear_symbols _ (mem_symbols_of_next? h)).2 hc

end Symbols

/-- **Each phrase keeps what it takes.** -/
theorem Reads.count_eq {c : Char} (hc : isOperand c = true) {p : Phrase} {s s' : Reading}
    (h : Reads p s s') :
    s.rest.count c = p.weight (.count c hc) + s'.rest.count c := by
  induction h with
  | cut => exact (count_trim hc _).symm
  | nest _ _ ih => exact ih
  | missing | noScript | done | stop => exact (Nat.zero_add _).symm
  | atom next atom =>
    rw [count_of_next? hc next, ← count_of_atom? hc next atom]
    rfl
  | bracket next | stray next =>
    rw [count_of_next?_symbol hc next, Phrase.weight, Expr.weight]
    show _ = List.count c _ + _
    rw [count_of_rightBracket hc next, Nat.zero_add]
  | quoted next => exact count_of_next? hc next
  | closed next _ close ih =>
    rw [count_of_next?_symbol hc next, Phrase.weight, Expr.weight_ofGroup_some]
    rw [← count_of_next?_symbol hc close]
    exact ih
  | unclosed next _ close ih =>
    rw [count_of_next?_symbol hc next, Phrase.weight, Expr.weight_ofGroup_none]
    rw [count_of_next?_eq_none hc close] at ih
    exact ih.trans (Nat.zero_add _).symm
  | unary next _ ih | textual next _ _ ih | script _ next _ ih =>
    exact (count_of_next?_symbol hc next).trans ih
  | raw next group => exact (count_of_next?_symbol hc next).trans (count_of_rawGroup? hc group)
  | binary next _ _ ih₁ ih₂ =>
    rw [count_of_next?_symbol hc next]
    rw [ih₂] at ih₁
    exact ih₁.trans (Nat.add_assoc _ _ _).symm
  | scripts _ _ _ _ ih₁ ih₂ ih₃ =>
    simp only [Phrase.weight, weight_withScripts] at ih₁ ih₂ ih₃ ⊢
    omega
  | late _ _ _ _ ih₁ ih₂ ih₃ =>
    simp only [Phrase.weight, weight_withScripts] at ih₁ ih₂ ih₃ ⊢
    omega
  | single _ _ ih | entry _ _ _ ih => exact ih
  | fraction _ next _ ih₁ ih₂ =>
    rw [count_of_next?_symbol hc next] at ih₁
    rw [ih₂] at ih₁
    exact ih₁.trans (Nat.add_assoc _ _ _).symm
  | more _ _ ih₁ ih₂ =>
    rw [ih₂] at ih₁
    exact ih₁.trans (Nat.add_assoc _ _ _).symm

/-! ### Writing -/

/-- An expression whose commands and brackets have no character that stands for itself. -/
inductive Expr.IsClear : Expr → Prop
  | atom (text : List Char) : IsClear (.atom text)
  | verbatim (raw : List Char) : IsClear (.verbatim raw)
  | group {opening : List Char} {closing? : Option (List Char)} {body : List Expr}
    (ho : isClear opening = true) (hc : ∀ closing ∈ closing?, isClear closing = true)
    (hbody : ∀ e ∈ body, IsClear e) : IsClear (.group opening closing? body)
  | matrix {opening closing : List Char} {rows : List (List (List Expr))}
    (ho : isClear opening = true) (hc : isClear closing = true)
    (hrows : ∀ row ∈ rows, ∀ cell ∈ row, ∀ e ∈ cell, IsClear e) :
    IsClear (.matrix opening closing rows)
  | unary {command : UnaryCommand} {argument : Expr}
    (hcommand : (Role.unary command).looksClear = true) (h : IsClear argument) :
    IsClear (.unary command argument)
  | textual {latex : List Char} {argument : Expr} (hlatex : isClear latex = true)
    (h : IsClear argument) : IsClear (.textual latex argument)
  | binary {command : BinaryCommand} {first second : Expr}
    (hcommand : (Role.binary command).looksClear = true) (hfirst : IsClear first)
    (hsecond : IsClear second) : IsClear (.binary command first second)
  | script {base : Expr} {sub? sup? : Option Expr} (hbase : IsClear base)
    (hsub : ∀ e ∈ sub?, IsClear e) (hsup : ∀ e ∈ sup?, IsClear e) :
    IsClear (.script base sub? sup?)
  | fraction {numerator denominator : Expr} (hnumerator : IsClear numerator)
    (hdenominator : IsClear denominator) : IsClear (.fraction numerator denominator)

/-- Whatever is read has clear commands and brackets, since they are those of symbols. -/
theorem readingRule_isClear : ReadingRule (fun _ ↦ True) Expr.IsClear where
  suffix _ _ := trivial
  atom _ _ := .atom _
  verbatim _ _ := .verbatim _
  constant _ := .atom _
  rightBracket _ := .atom _
  sign _ _ := .atom _
  ofGroup {input opening closing? body} hopening hclosing hbody := by
    have ho : isClear opening = true := (isClear_symbols _ hopening).2
    have hc : ∀ closing ∈ closing?, isClear closing = true := by
      intro closing hmem
      obtain ⟨input', hsymbol⟩ := hclosing closing hmem
      exact (isClear_symbols _ hsymbol).2
    rcases Expr.ofGroup_cases opening closing? body with ⟨closing, rows, rfl, hlooks, heq⟩ | heq <;>
      rw [heq]
    · refine .matrix ho (hc _ rfl) (hlooks.forall_cells fun o c inner hmem ↦ ?_)
      cases hbody _ hmem with
      | group _ _ hinner => exact hinner
    · exact .group ho hc hbody
  unary hsymbol := .unary (isClear_symbols _ hsymbol).2
  textual hsymbol := .textual (isClear_symbols _ hsymbol).2
  binary hsymbol := .binary (isClear_symbols _ hsymbol).2
  script := .script
  fraction := .fraction

section Clear

variable {a b : List Char}

theorem isClear_append (ha : isClear a = true) (hb : isClear b = true) :
    isClear (a ++ b) = true := by
  rw [isClear, List.all_append, Bool.and_eq_true]
  exact ⟨ha, hb⟩

theorem isClear_braced (h : isClear a = true) : isClear (braced a) = true :=
  isClear_append (a := ['\x7b']) (by decide) (isClear_append h (by decide))

theorem isClear_delimiter (h : isClear a = true) : isClear (delimiter a) = true := by
  unfold delimiter
  split
  · decide
  · exact h

theorem isClear_leftDelimiter (h : isClear a = true) : isClear (leftDelimiter a) = true :=
  isClear_append (by decide) (isClear_delimiter h)

theorem isClear_rightDelimiter (h : isClear a = true) : isClear (rightDelimiter a) = true :=
  isClear_append (by decide) (isClear_delimiter h)

end Clear

section Forms

variable {c : Char} (hc : isOperand c = true)

include hc

theorem count_clear_append {a : List Char} (h : isClear a = true) (b : List Char) :
    (a ++ b).count c = b.count c := by
  rw [List.count_append, count_of_isClear h hc, Nat.zero_add]

theorem count_append_clear (a : List Char) {b : List Char} (h : isClear b = true) :
    (a ++ b).count c = a.count c := by
  rw [List.count_append, count_of_isClear h hc, Nat.add_zero]

theorem count_push (out piece : List Char) :
    (push out piece).count c = out.count c + piece.count c := by
  unfold push
  split
  · rfl
  · next d piece =>
    split
    · rw [List.count_append]
      congr 1
      exact count_clear_append hc (a := [' ']) (by decide) _
    · exact List.count_append

theorem count_braced (cs : List Char) : (braced cs).count c = cs.count c :=
  (count_clear_append hc (a := ['\x7b']) (by decide) _).trans
    (count_append_clear hc cs (by decide))

/-- A control word with its argument in braces. -/
theorem count_command {a : List Char} (h : isClear a = true) (argument : List Char) :
    (a ++ braced argument).count c = argument.count c :=
  (count_clear_append hc h _).trans (count_braced hc argument)

theorem count_command₂ {a : List Char} (h : isClear a = true) (first second : List Char) :
    (a ++ braced first ++ braced second).count c = first.count c + second.count c := by
  rw [List.count_append, count_command hc h, count_braced hc]

theorem count_scriptArgument (cs : List Char) : (scriptArgument cs).count c = cs.count c := by
  unfold scriptArgument
  split
  · rfl
  · exact count_braced hc cs

theorem count_intercalate (separator : List Char) (h : isClear separator = true)
    (texts : List (List Char)) :
    (separator.intercalate texts).count c = texts.flatten.count c := by
  induction texts with
  | nil => rfl
  | cons text texts ih =>
    cases texts with
    | nil => rw [List.intercalate_singleton, List.flatten_singleton]
    | cons text' texts =>
      rw [List.intercalate_cons_cons, List.count_append, count_append_clear hc text h, ih,
        ← List.count_append]
      rfl

theorem count_environment {name : String} (h : isClear name.toList = true) (body : List Char) :
    (environment name body).count c = body.count c := by
  have hinner := (count_append_clear hc (body ++ " \\end".toList) (isClear_braced h)).trans
    (count_append_clear hc body (by decide))
  have hblank := (count_clear_append hc (a := [' ']) (by decide) _).trans hinner
  exact (count_clear_append hc (isClear_append (by decide) (isClear_braced h)) _).trans hblank

theorem count_matrixLatex {opening closing : List Char} (hopening : isClear opening = true)
    (hclosing : isClear closing = true) (body : List Char) :
    (matrixLatex opening closing body).count c = body.count c := by
  rw [matrixLatex]
  split
  · exact count_environment hc (by decide) body
  split
  · exact count_environment hc (by decide) body
  · rw [count_append_clear hc _ (isClear_rightDelimiter hclosing),
      count_clear_append hc (isClear_leftDelimiter hopening)]
    exact count_environment hc (by decide) body

theorem count_unary {command : UnaryCommand} (h : (Role.unary command).looksClear = true)
    (argument : List Char) : (command.latex argument).count c = argument.count c := by
  cases command with
  | command word => exact count_command hc h argument
  | delimited opening closing =>
    obtain ⟨hopening, hclosing⟩ := Bool.and_eq_true_iff.mp h
    have hleft : isClear ("\\left".toList ++ opening) = true := isClear_append (by decide) hopening
    exact (count_append_clear hc _ hclosing).trans ((count_append_clear hc _ (by decide)).trans
      (count_clear_append hc hleft argument))

theorem count_binary {command : BinaryCommand} (h : (Role.binary command).looksClear = true)
    (first second : List Char) :
    (command.latex first second).count c = first.count c + second.count c := by
  cases command with
  | command word => exact count_command₂ hc h first second
  | root =>
    have hfirst := count_clear_append hc (a := "\\sqrt[".toList) (by decide) first
    have hsecond := count_command hc (a := [']']) (by decide) second
    exact List.count_append.trans (congrArg₂ (· + ·) hfirst hsecond)
  | color =>
    have hfirst := count_command hc (a := "\\color".toList) (by decide) first
    exact (count_braced hc _).trans (List.count_append.trans (congrArg (· + _) hfirst))

end Forms

section Writing

variable {c : Char} (hc : isOperand c = true)

theorem isClear_getD {closing? : Option (List Char)}
    (h : ∀ closing ∈ closing?, isClear closing = true) : isClear (closing?.getD []) = true := by
  cases closing? with
  | none => rfl
  | some closing => exact h closing rfl

theorem weight_group (opening : List Char) (closing? : Option (List Char)) (body : List Expr) :
    (Expr.group opening closing? body).weight (.count c hc) = listWeight (.count c hc) body := by
  cases closing? with
  | none => exact Nat.zero_add _
  | some closing => rfl

/-- That an expression is written with what it weighs. -/
def Writes (hc : isOperand c = true) (e : Expr) : Prop :=
  ∀ bare out, (emit bare e out).count c = out.count c + e.weight (.count c hc)

variable {hc}

theorem Writes.emitAll {es : List Expr} (h : ∀ e ∈ es, Writes hc e) (out : List Char) :
    (emitAll es out).count c = out.count c + listWeight (.count c hc) es := by
  induction es generalizing out with
  | nil => rfl
  | cons e es ih =>
    rw [List.forall_mem_cons] at h
    rw [AsciiMath.emitAll, ih h.2, h.1, listWeight, Nat.add_assoc]

theorem Writes.emitScript {mark : Char} (hmark : isOperand mark = false) {e? : Option Expr}
    (h : ∀ e ∈ e?, Writes hc e) (out : List Char) :
    (emitScript mark e? out).count c = out.count c + scriptWeight (.count c hc) e? := by
  cases e? with
  | none => rfl
  | some e =>
    have hargument : (emit true e []).count c = e.weight (.count c hc) :=
      (h e rfl true []).trans (Nat.zero_add _)
    rw [AsciiMath.emitScript, count_push hc, List.count_cons_of_ne (ne_of_isOperand hc hmark),
      count_scriptArgument hc, hargument, scriptWeight]

theorem Writes.cellTexts {cells : List (List Expr)} (h : ∀ cell ∈ cells, ∀ e ∈ cell, Writes hc e) :
    (cellTexts cells).flatten.count c = cellsWeight (.count c hc) cells := by
  induction cells with
  | nil => rfl
  | cons cell cells ih =>
    rw [List.forall_mem_cons] at h
    rw [AsciiMath.cellTexts, List.flatten_cons, List.count_append, ih h.2, Writes.emitAll h.1,
      cellsWeight, List.count_nil, Nat.zero_add]

theorem Writes.rowTexts {rows : List (List (List Expr))}
    (h : ∀ row ∈ rows, ∀ cell ∈ row, ∀ e ∈ cell, Writes hc e) :
    (rowTexts rows).flatten.count c = rowsWeight (.count c hc) rows := by
  induction rows with
  | nil => rfl
  | cons row rows ih =>
    rw [List.forall_mem_cons] at h
    have hrow := count_intercalate hc " & ".toList (by decide) (AsciiMath.cellTexts row)
    rw [AsciiMath.rowTexts, List.flatten_cons, List.count_append, ih h.2, hrow,
      Writes.cellTexts h.1, rowsWeight]

/-- **Each expression is written with what it keeps.** -/
theorem Expr.IsClear.writes (hc : isOperand c = true) {e : Expr} (h : e.IsClear) : Writes hc e := by
  induction h with
  | atom text =>
    intro bare out
    exact count_push hc out text
  | verbatim raw =>
    intro bare out
    exact (count_push hc out _).trans (congrArg (_ + ·) (count_command hc (by decide) raw))
  | group ho hclosing _ ih =>
    intro bare out
    rw [emit, weight_group]
    split
    · rw [count_push hc, Writes.emitAll ih, count_push hc,
        count_of_isClear (isClear_leftDelimiter ho) hc,
        count_of_isClear (isClear_rightDelimiter (isClear_getD hclosing)) hc]
      rfl
    · exact Writes.emitAll ih out
  | @matrix opening closing rows ho hclosing _ ih =>
    intro bare out
    have hrows := count_intercalate hc " \\\\ ".toList (by decide) (rowTexts rows)
    rw [emit, count_push hc, count_matrixLatex hc ho hclosing, hrows, Writes.rowTexts ih, weight]
  | unary hcommand _ ih =>
    intro bare out
    rw [emit, count_push hc, count_unary hc hcommand, ih, weight, List.count_nil, Nat.zero_add]
  | @textual latex argument hlatex _ ih =>
    intro bare out
    by_cases hraw : ∃ raw, argument = .verbatim raw
    · obtain ⟨raw, rfl⟩ := hraw
      rw [emit, count_push hc, count_command hc hlatex]
      rfl
    · rw [emit_textual fun raw heq ↦ hraw ⟨raw, heq⟩, count_push hc, count_command hc hlatex, ih,
        weight, List.count_nil, Nat.zero_add]
  | binary hcommand _ _ ih₁ ih₂ =>
    intro bare out
    rw [emit, count_push hc, count_binary hc hcommand, ih₁, ih₂, weight, List.count_nil,
      Nat.zero_add, Nat.zero_add]
  | script _ _ _ ih ihsub ihsup =>
    intro bare out
    rw [emit, Writes.emitScript (by decide) ihsup, Writes.emitScript (by decide) ihsub, ih, weight]
    omega
  | fraction _ _ ih₁ ih₂ =>
    intro bare out
    have hwritten := count_command₂ hc (a := "\\frac".toList) (by decide)
    rw [emit, count_push hc, hwritten, ih₁, ih₂, weight, List.count_nil, Nat.zero_add, Nat.zero_add]

end Writing

/-- **No operand is lost, and none is doubled.** A digit, and a character outside ASCII that is not
blank, occurs in the LaTeX of a text as often as in the text, whatever the text is. -/
theorem count_toLatex (text : List Char) {c : Char}
    (h : isDigit c = true ∨ 128 ≤ c.toNat ∧ Text.isBlank c = false) :
    (toLatex text).count c = text.count c := by
  have hc : isOperand c = true := by
    rw [isOperand, Bool.or_eq_true, Bool.and_eq_true, decide_eq_true_iff, Bool.not_eq_true']
    exact h
  obtain ⟨s, hread⟩ := reads_parse text
  have hkept : text.count c = listWeight (.count c hc) (parse text) + s.rest.count c :=
    hread.count_eq hc
  have hrest : s.rest.count c = 0 := count_of_next?_eq_none hc hread.next?_eq_none
  have hclear : ∀ e ∈ parse text, e.IsClear := readingRule_isClear.parse trivial
  have hwritten := Writes.emitAll (fun e he ↦ (hclear e he).writes hc) []
  rw [toLatex, hwritten, hkept, hrest, List.count_nil, Nat.zero_add, Nat.add_zero]

/-- In a text whose brackets are not closed, with a script that has no argument. -/
theorem count_toLatex_unclosed :
    (toLatex "(é_2 text(é2 \"".toList).count 'é' = 2 :=
  (count_toLatex _ (by decide)).trans (by decide)

end DocumentMath.AsciiMath
