import DocumentMath.Proofs.AsciiMath.Marks

/-!
# LaTeX is written in balance

Whatever is written for an expression has nested marks, and so has everything that is written so far
(`Expr.IsPlain.emits`). That is shown for expressions whose atoms are balanced pieces
and whose brackets are delimiters (`Expr.IsPlain`); it does not matter which bracket closes a group,
or whether any does.

A text that is balanced may be put behind another one wherever no control word goes on
(`IsBalanced.append`). So each form of LaTeX that is written is balanced if its arguments are; the
sizing commands are the only ones that come apart, since the two belong to pieces of their own.
-/

namespace DocumentMath.AsciiMath

/-! ### Balanced texts -/

/-- A text that can be followed by others and in which all marks have their partners. -/
structure IsBalanced (cs : List Char) : Prop where
  piece : IsPiece cs
  nested : IsNested (marks cs)

namespace IsBalanced

variable {cs ds : List Char}

theorem nil : IsBalanced [] := ⟨.nil, .nil⟩

theorem of_plain (h : ∀ c ∈ cs, c ≠ '\\' ∧ charMark? c = none) : IsBalanced cs := by
  obtain ⟨hpiece, hmarks⟩ := IsPiece.of_plain h
  exact ⟨hpiece, hmarks ▸ .nil⟩

theorem of_all_plain (h : cs.all (fun c ↦ c ≠ '\\' ∧ charMark? c = none) = true) :
    IsBalanced cs :=
  .of_plain fun c hc ↦ of_decide_eq_true (List.all_eq_true.mp h c hc)

/-- Balanced texts are put together where no control word goes on. -/
theorem append (hcs : IsBalanced cs) (hds : IsBalanced ds)
    (h : (∃ c ∈ ds.head?, isLetter c = false) ∨ ∃ c ∈ cs.getLast?, isLetter c = false) :
    IsBalanced (cs ++ ds) := by
  have hgoes : ∀ b, marks (cs ++ (ds ++ b)) = marks cs ++ marks (ds ++ b) := by
    intro b
    refine marks_append hcs.piece.last (h.imp_left ?_)
    rintro ⟨c, hc, hletter⟩ d hd
    rw [List.head?_append, Option.mem_def.mp hc, Option.some_or] at hd
    cases hd
    exact hletter
  obtain ⟨hpiece, hmarks⟩ := hcs.piece.append hds.piece hgoes
  exact ⟨hpiece, hmarks ▸ hcs.nested.append hds.nested⟩

theorem marks_braced_append (hcs : IsPiece cs) (b : List Char) :
    marks (braced cs ++ b)
      = .opening .brace :: (marks cs ++ .closing .brace :: marks b) := by
  have hbraced : braced cs ++ b = '\x7b' :: (cs ++ '\x7d' :: b) := by
    rw [braced, List.cons_append, List.append_assoc]
    rfl
  rw [hbraced, marks_cons (by decide), hcs.marks_append (by intro c hc; cases hc; decide),
    marks_cons (by decide)]
  rfl

/-- A balanced text may be put in braces. -/
theorem braced (h : IsBalanced cs) : IsBalanced (braced cs) where
  piece := by
    have hlast : (AsciiMath.braced cs).getLast? = some '\x7d' := by
      rw [AsciiMath.braced, ← List.cons_append, List.getLast?_concat]
    exact .of_last hlast (by decide) (by decide)
  nested := by
    have hmarks := marks_braced_append h.piece []
    rw [List.append_nil] at hmarks
    exact hmarks ▸ h.nested.around .brace

/-- A text in braces may be put behind any balanced one. -/
theorem append_braced (hcs : IsBalanced cs) (hds : IsBalanced ds) :
    IsBalanced (cs ++ AsciiMath.braced ds) :=
  hcs.append hds.braced (Or.inl ⟨'\x7b', rfl, by decide⟩)

/-- Balanced texts with a separator between them are balanced, if no letter is at either end of the
separator. -/
theorem intercalate {separator : List Char} {texts : List (List Char)}
    (hseparator : IsBalanced separator)
    (hhead : ∃ c ∈ separator.head?, isLetter c = false)
    (hlast : ∃ c ∈ separator.getLast?, isLetter c = false) (h : ∀ t ∈ texts, IsBalanced t) :
    IsBalanced (separator.intercalate texts) := by
  induction texts with
  | nil => exact nil
  | cons text texts ih =>
    rw [List.forall_mem_cons] at h
    cases texts with
    | nil =>
      rw [List.intercalate_singleton]
      exact h.1
    | cons next texts =>
      rw [List.intercalate_cons_cons]
      refine (h.1.append hseparator (Or.inl hhead)).append (ih h.2) (Or.inr ?_)
      obtain ⟨c, hc, hletter⟩ := hlast
      refine ⟨c, ?_, hletter⟩
      rw [List.getLast?_append, Option.mem_def.mp hc, Option.some_or]
      rfl

end IsBalanced

/-! ### Delimiters -/

/-- A text that may stand behind a sizing command: it does not go on with the command, and neither
it nor what it becomes with letters behind it is a mark. -/
structure IsDelimiter (latex : List Char) : Prop where
  first : ∃ c ∈ latex.head?, isLetter c = false
  last : latex.getLast? ≠ some '\\'
  unmarked : ∀ b, marks (latex ++ b) = marks b

section Sized

variable {o c : List Char}

/-- A sizing command with its delimiter is a piece, and one mark. -/
theorem IsDelimiter.command (h : IsDelimiter o) {word : List Char} {m : Mark}
    (hlast : word.getLast? ≠ some '\\') (hword : marks word = [m]) :
    IsPiece (word ++ o) ∧ marks (word ++ o) = [m] ∧
      ∀ b, marks (word ++ o ++ b) = m :: marks b := by
  have hmarks : ∀ b, marks (word ++ o ++ b) = m :: marks b := by
    intro b
    obtain ⟨d, hd, hletter⟩ := h.first
    rw [List.append_assoc, marks_append hlast (Or.inl ?_), h.unmarked, hword]
    · rfl
    · intro e he
      rw [List.head?_append, Option.mem_def.mp hd, Option.some_or] at he
      cases he
      exact hletter
  have hnil : marks (word ++ o) = [m] := by
    have happend := hmarks []
    rwa [List.append_nil] at happend
  refine ⟨⟨?_, fun _ b ↦ by rw [hmarks, hnil]; rfl⟩, hnil, hmarks⟩
  have hlast' := h.last
  rw [List.getLast?_append]
  cases hsome : o.getLast? with
  | none => exact hlast
  | some e =>
    rw [hsome] at hlast'
    exact hlast'

theorem IsDelimiter.left (h : IsDelimiter o) :
    IsPiece ("\\left".toList ++ o) ∧ marks ("\\left".toList ++ o) = [.opening .sized] ∧
      ∀ b, marks ("\\left".toList ++ o ++ b) = .opening .sized :: marks b :=
  h.command (by decide) (by decide)

theorem IsDelimiter.right (h : IsDelimiter o) :
    IsPiece ("\\right".toList ++ o) ∧ marks ("\\right".toList ++ o) = [.closing .sized] ∧
      ∀ b, marks ("\\right".toList ++ o ++ b) = .closing .sized :: marks b :=
  h.command (by decide) (by decide)

/-- Sized delimiters around a balanced text. -/
theorem IsBalanced.sized {cs left right : List Char} (ho : IsDelimiter o) (hc : IsDelimiter c)
    (hleftEq : left = "\\left".toList ++ o) (hrightEq : right = "\\right".toList ++ c)
    (hcs : IsBalanced cs) : IsBalanced (left ++ cs ++ right) := by
  obtain ⟨hleft, hleftMarks, hgoes⟩ := ho.left
  obtain ⟨hright, hrightMarks, -⟩ := hc.right
  rw [← hleftEq] at hleft hleftMarks hgoes
  rw [← hrightEq] at hright hrightMarks
  obtain ⟨hinner, hinnerMarks⟩ := hcs.piece.append hright fun b ↦
    hcs.piece.marks_append fun d hd ↦ by rw [hrightEq] at hd; cases hd; decide
  obtain ⟨hpiece, hmarks⟩ := hleft.append hinner fun b ↦ by rw [hgoes, hleftMarks]; rfl
  rw [List.append_assoc]
  refine ⟨hpiece, ?_⟩
  rw [hmarks, hinnerMarks, hleftMarks, hrightMarks]
  exact hcs.nested.around .sized

end Sized

/-! ### Forms of LaTeX -/

/-- Whether a text is balanced for one of the reasons that can be seen from it alone: it ends with a
control word or with something else than a letter, and its marks are none or a pair of braces. -/
def looksBalanced (cs : List Char) : Bool :=
  cs.getLast? != some '\\' && (endsWithControlWord cs || cs.getLast?.all (!isLetter ·)) &&
    (marks cs == [] || marks cs == [.opening .brace, .closing .brace])

theorem isBalanced_of_looksBalanced {cs : List Char} (h : looksBalanced cs = true) :
    IsBalanced cs := by
  simp only [looksBalanced, Bool.and_eq_true, Bool.or_eq_true, bne_iff_ne, beq_iff_eq] at h
  obtain ⟨⟨hlast, hends⟩, hmarks⟩ := h
  refine ⟨⟨hlast, fun hnot b ↦ ?_⟩, ?_⟩
  · rcases hends with hends | hletter
    · rw [hends] at hnot
      cases hnot
    · cases hsome : cs.getLast? with
      | none =>
        rw [List.getLast?_eq_none_iff.mp hsome]
        rfl
      | some c =>
        refine marks_append hlast (Or.inr ⟨c, hsome, ?_⟩)
        rw [hsome] at hletter
        simpa using hletter
  · rcases hmarks with hmarks | hmarks <;> rw [hmarks]
    · exact .nil
    · exact .around .brace .nil

section Forms

variable {a b : List Char}

theorem isBalanced_environment {name : String} (hname : IsBalanced name.toList)
    (h : IsBalanced a) : IsBalanced (environment name a) := by
  have hbegin : IsBalanced ("\\begin".toList ++ braced name.toList) :=
    (isBalanced_of_looksBalanced (by decide)).append_braced hname
  have hblank : IsBalanced ([' '] ++ a) :=
    (isBalanced_of_looksBalanced (by decide)).append h (Or.inr ⟨' ', rfl, by decide⟩)
  have hend : IsBalanced ([' '] ++ a ++ " \\end".toList) :=
    hblank.append (isBalanced_of_looksBalanced (by decide)) (Or.inl ⟨' ', rfl, by decide⟩)
  show IsBalanced ("\\begin".toList ++ braced name.toList
    ++ ([' '] ++ a ++ " \\end".toList ++ braced name.toList))
  exact hbegin.append (hend.append_braced hname) (Or.inl ⟨' ', rfl, by decide⟩)

theorem isBalanced_matrixLatex {opening closing : List Char} (ho : IsDelimiter (delimiter opening))
    (hc : IsDelimiter (delimiter closing)) (h : IsBalanced a) :
    IsBalanced (matrixLatex opening closing a) := by
  rw [matrixLatex]
  split
  · exact isBalanced_environment (.of_all_plain (by decide)) h
  · split
    · exact isBalanced_environment (.of_all_plain (by decide)) h
    · exact .sized ho hc rfl rfl (isBalanced_environment (.of_all_plain (by decide)) h)

/-- A script is balanced if its argument is, since a single character has no mark then. -/
theorem isBalanced_script {mark : Char} (hmark : IsBalanced [mark])
    (hletter : isLetter mark = false) (h : IsBalanced a) :
    IsBalanced (mark :: scriptArgument a) := by
  have hargument : IsBalanced (scriptArgument a) := by
    unfold scriptArgument
    split
    · exact h
    · exact h.braced
  exact hmark.append hargument (Or.inr ⟨mark, rfl, hletter⟩)

end Forms

/-! ### Commands -/

/-- The LaTeX of a command keeps balance. -/
inductive UnaryCommand.IsSound : UnaryCommand → Prop
  | command {word : List Char} (h : IsBalanced word) : IsSound (.command word)
  | delimited {opening closing : List Char} (ho : IsDelimiter opening) (hc : IsDelimiter closing) :
    IsSound (.delimited opening closing)

theorem UnaryCommand.IsSound.latex {command : UnaryCommand} (h : command.IsSound)
    {argument : List Char} (ha : IsBalanced argument) : IsBalanced (command.latex argument) := by
  cases h with
  | @command word hword =>
    show IsBalanced (word ++ braced argument)
    exact hword.append_braced ha
  | @delimited opening closing ho hc =>
    have hassoc := List.append_assoc ("\\left".toList ++ opening ++ argument)
      "\\right".toList closing
    have hsized : IsBalanced
        ("\\left".toList ++ opening ++ argument ++ ("\\right".toList ++ closing)) :=
      .sized ho hc rfl rfl ha
    rw [← hassoc] at hsized
    exact hsized

/-- The LaTeX of a command keeps balance. -/
inductive BinaryCommand.IsSound : BinaryCommand → Prop
  | command {word : List Char} (h : IsBalanced word) : IsSound (.command word)
  | root : IsSound .root
  | color : IsSound .color

theorem BinaryCommand.IsSound.latex {command : BinaryCommand} (h : command.IsSound)
    {first second : List Char} (hfirst : IsBalanced first) (hsecond : IsBalanced second) :
    IsBalanced (command.latex first second) := by
  cases h with
  | @command word hword =>
    show IsBalanced (word ++ braced first ++ braced second)
    exact (hword.append_braced hfirst).append_braced hsecond
  | root =>
    show IsBalanced ("\\sqrt[".toList ++ first ++ ([']'] ++ braced second))
    have hopen : IsBalanced ("\\sqrt[".toList ++ first) :=
      (isBalanced_of_looksBalanced (by decide)).append hfirst (Or.inr ⟨'[', by decide, by decide⟩)
    have hclose : IsBalanced ([']'] ++ braced second) :=
      (isBalanced_of_looksBalanced (by decide)).append_braced hsecond
    exact hopen.append hclose (Or.inl ⟨']', rfl, by decide⟩)
  | color =>
    show IsBalanced (braced ("\\color".toList ++ braced first ++ second))
    have hcolor : IsBalanced ("\\color".toList ++ braced first) :=
      (isBalanced_of_looksBalanced (by decide)).append_braced hfirst
    refine (hcolor.append hsecond (Or.inr ⟨'\x7d', ?_, by decide⟩)).braced
    rw [braced, ← List.cons_append, ← List.append_assoc, List.getLast?_concat]
    rfl

/-! ### Expressions -/

/-- An expression of which everything that is written as it is keeps balance: its atoms, the words
of its commands, and its brackets behind sizing commands. -/
inductive Expr.IsPlain : Expr → Prop
  | atom {text : List Char} (h : IsBalanced text) : IsPlain (.atom text)
  | group {opening : List Char} {closing? : Option (List Char)} {body : List Expr}
    (ho : IsDelimiter (delimiter opening)) (hc : IsDelimiter (delimiter (closing?.getD [])))
    (hbody : ∀ e ∈ body, IsPlain e) : IsPlain (.group opening closing? body)
  | matrix {opening closing : List Char} {rows : List (List (List Expr))}
    (ho : IsDelimiter (delimiter opening)) (hc : IsDelimiter (delimiter closing))
    (hrows : ∀ row ∈ rows, ∀ cell ∈ row, ∀ e ∈ cell, IsPlain e) :
    IsPlain (.matrix opening closing rows)
  | unary {command : UnaryCommand} {argument : Expr} (hcommand : command.IsSound)
    (h : IsPlain argument) : IsPlain (.unary command argument)
  | textual {latex : List Char} {argument : Expr} (hlatex : IsBalanced latex)
    (h : IsPlain argument) : IsPlain (.textual latex argument)
  | binary {command : BinaryCommand} {first second : Expr} (hcommand : command.IsSound)
    (hfirst : IsPlain first) (hsecond : IsPlain second) : IsPlain (.binary command first second)
  | script {base : Expr} {sub? sup? : Option Expr} (hbase : IsPlain base)
    (hsub : ∀ e ∈ sub?, IsPlain e) (hsup : ∀ e ∈ sup?, IsPlain e) :
    IsPlain (.script base sub? sup?)
  | fraction {numerator denominator : Expr} (hnumerator : IsPlain numerator)
    (hdenominator : IsPlain denominator) : IsPlain (.fraction numerator denominator)

/-- A text has become another one by putting something nested behind it. -/
structure Adds (out out' : List Char) : Prop where
  piece : IsPiece out'
  nested : ∃ ms, IsNested ms ∧ marks out' = marks out ++ ms

namespace Adds

variable {out out' out'' : List Char}

theorem refl (h : IsPiece out) : Adds out out :=
  ⟨h, [], .nil, (List.append_nil _).symm⟩

theorem trans (h : Adds out out') (h' : Adds out' out'') : Adds out out'' := by
  obtain ⟨ms, hms, hmarks⟩ := h.nested
  obtain ⟨ms', hms', hmarks'⟩ := h'.nested
  refine ⟨h'.piece, ms ++ ms', hms.append hms', ?_⟩
  rw [hmarks', hmarks, List.append_assoc]

theorem push {piece : List Char} (h : IsPiece out) (hpiece : IsBalanced piece) :
    Adds out (push out piece) := by
  obtain ⟨hpush, hmarks⟩ := h.push hpiece.piece
  exact ⟨hpush, marks piece, hpiece.nested, hmarks⟩

theorem isBalanced (h : Adds [] out) : IsBalanced out := by
  obtain ⟨ms, hms, hmarks⟩ := h.nested
  exact ⟨h.piece, hmarks ▸ hms⟩

end Adds

theorem adds_emitAll {es : List Expr}
    (h : ∀ e ∈ es, ∀ bare out, IsPiece out → Adds out (emit bare e out)) {out : List Char}
    (hout : IsPiece out) : Adds out (emitAll es out) := by
  induction es generalizing out with
  | nil => exact .refl hout
  | cons e es ih =>
    rw [List.forall_mem_cons] at h
    have hfirst := h.1 false out hout
    unfold emitAll
    exact hfirst.trans (ih h.2 hfirst.piece)

theorem adds_emitScript {mark : Char} {e? : Option Expr} (hmark : IsBalanced [mark])
    (hletter : isLetter mark = false)
    (h : ∀ e ∈ e?, ∀ bare out, IsPiece out → Adds out (emit bare e out)) {out : List Char}
    (hout : IsPiece out) : Adds out (emitScript mark e? out) := by
  cases e? with
  | none => exact .refl hout
  | some e =>
    unfold emitScript
    exact .push hout (isBalanced_script hmark hletter (h e rfl true [] .nil).isBalanced)

theorem isBalanced_of_mem_cellTexts {cells : List (List Expr)}
    (h : ∀ cell ∈ cells, ∀ e ∈ cell, ∀ bare out, IsPiece out → Adds out (emit bare e out)) :
    ∀ text ∈ cellTexts cells, IsBalanced text := by
  induction cells with
  | nil => exact List.forall_mem_nil _
  | cons cell cells ih =>
    rw [List.forall_mem_cons] at h
    rw [cellTexts, List.forall_mem_cons]
    exact ⟨(adds_emitAll h.1 .nil).isBalanced, ih h.2⟩

theorem isBalanced_of_mem_rowTexts {rows : List (List (List Expr))}
    (h : ∀ row ∈ rows, ∀ cell ∈ row, ∀ e ∈ cell, ∀ bare out, IsPiece out →
      Adds out (emit bare e out)) :
    ∀ text ∈ rowTexts rows, IsBalanced text := by
  induction rows with
  | nil => exact List.forall_mem_nil _
  | cons row rows ih =>
    rw [List.forall_mem_cons] at h
    rw [rowTexts, List.forall_mem_cons]
    have hseparator : IsBalanced " & ".toList := isBalanced_of_looksBalanced (by decide)
    exact ⟨hseparator.intercalate ⟨' ', rfl, by decide⟩ ⟨' ', by decide, by decide⟩
      (isBalanced_of_mem_cellTexts h.1), ih h.2⟩

/-- The argument of a text command is written as any other one, if it is not kept as it is. -/
theorem emit_textual {argument : Expr} (h : ∀ raw, argument ≠ .verbatim raw) (bare : Bool)
    (latex out : List Char) :
    emit bare (.textual latex argument) out
      = push out (latex ++ braced (emit true argument [])) := by
  cases argument
  case verbatim raw => exact absurd rfl (h raw)
  all_goals rfl

/-- **Writing an expression keeps balance.** What is added to a text has nested marks. -/
theorem Expr.IsPlain.emits {e : Expr} (h : e.IsPlain) :
    ∀ bare out, IsPiece out → Adds out (emit bare e out) := by
  induction h with
  | atom h =>
    intro bare out hout
    exact .push hout h
  | @group opening closing? body ho hc _ ih =>
    intro bare out hout
    unfold emit
    split
    · -- the delimiters are pieces of their own, with all of the body between them
      obtain ⟨hleft, hleftMarks, -⟩ := ho.left
      obtain ⟨hright, hrightMarks, -⟩ := hc.right
      unfold leftDelimiter rightDelimiter
      obtain ⟨hopen, hopenMarks⟩ := hout.push hleft
      have hbody := adds_emitAll ih hopen
      obtain ⟨ms, hms, hbodyMarks⟩ := hbody.nested
      obtain ⟨hclose, hcloseMarks⟩ := hbody.piece.push hright
      refine ⟨hclose, _, hms.around .sized, ?_⟩
      rw [hcloseMarks, hbodyMarks, hopenMarks, hleftMarks, hrightMarks]
      simp only [List.append_assoc, List.cons_append, List.nil_append]
    · exact adds_emitAll ih hout
  | matrix ho hc _ ih =>
    intro bare out hout
    unfold emit
    have hseparator : IsBalanced " \\\\ ".toList := isBalanced_of_looksBalanced (by decide)
    exact .push hout (isBalanced_matrixLatex ho hc (hseparator.intercalate ⟨' ', rfl, by decide⟩
      ⟨' ', by decide, by decide⟩ (isBalanced_of_mem_rowTexts ih)))
  | unary hcommand _ ih =>
    intro bare out hout
    unfold emit
    exact .push hout (hcommand.latex (ih true [] .nil).isBalanced)
  | textual hlatex hargument ih =>
    intro bare out hout
    rw [emit_textual]
    · exact .push hout (hlatex.append_braced (ih true [] .nil).isBalanced)
    · rintro raw rfl
      cases hargument
  | binary hcommand _ _ ihfirst ihsecond =>
    intro bare out hout
    unfold emit
    exact .push hout
      (hcommand.latex (ihfirst true [] .nil).isBalanced (ihsecond true [] .nil).isBalanced)
  | script _ _ _ ihbase ihsub ihsup =>
    intro bare out hout
    unfold emit
    have hbase := ihbase false out hout
    have hunderscore : IsBalanced ['_'] := .of_all_plain (by decide)
    have hcaret : IsBalanced ['^'] := .of_all_plain (by decide)
    have hsub := adds_emitScript hunderscore (by decide) ihsub hbase.piece
    have hsup := adds_emitScript hcaret (by decide) ihsup hsub.piece
    exact (hbase.trans hsub).trans hsup
  | fraction _ _ ihnumerator ihdenominator =>
    intro bare out hout
    unfold emit
    have hword : IsBalanced "\\frac".toList := isBalanced_of_looksBalanced (by decide)
    exact .push hout ((hword.append_braced (ihnumerator true [] .nil).isBalanced).append_braced
      (ihdenominator true [] .nil).isBalanced)

end DocumentMath.AsciiMath
