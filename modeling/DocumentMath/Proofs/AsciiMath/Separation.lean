import DocumentMath.Proofs.AsciiMath.Nesting
import DocumentMath.Proofs.AsciiMath.Reading
import DocumentMath.Proofs.AsciiMath.Words

/-!
# Control words are kept apart

What is written piece by piece never lets a control word run into a letter, since `push` keeps the
pieces apart. Some pieces are put together without `push`, though. Nearly all of these set their
arguments in braces; only a command that puts delimiters around its argument writes the argument
directly behind the opening one. If that is a control word and the argument starts with a letter,
the two become one longer word (`UnaryCommand.runOns`).

`strayWords_toLatex` says that this is all: the control words in the LaTeX of a text without
backslashes that nobody spelled out are these run-ons, in the order of the text. The only such
delimiters are `\lfloor` and `\lceil`.
-/

namespace DocumentMath.AsciiMath

/-! ### Run-ons -/

/-- The longer control word that an opening delimiter makes with the argument behind it. -/
def UnaryCommand.runOns (argument : List Char) : UnaryCommand → List (List Char)
  | command _ => []
  | delimited opening _ =>
    if endsWithControlWord opening && argument.head?.any isLetter then
      [opening.drop 1 ++ argument.takeWhile isLetter]
    else []

mutual

/-- The run-ons in what is written for an expression. -/
def Expr.runOns : Expr → List (List Char)
  | .atom _ => []
  | .verbatim _ => []
  | .group _ _ body => allRunOns body
  | .matrix _ _ rows => rowsRunOns rows
  | .unary command argument => command.runOns (emit true argument []) ++ argument.runOns
  | .textual _ argument => argument.runOns
  | .binary _ first second => first.runOns ++ second.runOns
  | .script base sub? sup? => base.runOns ++ scriptRunOns sub? ++ scriptRunOns sup?
  | .fraction numerator denominator => numerator.runOns ++ denominator.runOns

/-- The run-ons of a script. -/
def scriptRunOns : Option Expr → List (List Char)
  | none => []
  | some e => e.runOns

/-- The run-ons of expressions one after the other. -/
def allRunOns : List Expr → List (List Char)
  | [] => []
  | e :: es => e.runOns ++ allRunOns es

/-- The run-ons of the rows of a matrix. -/
def rowsRunOns : List (List (List Expr)) → List (List Char)
  | [] => []
  | row :: rows => cellsRunOns row ++ rowsRunOns rows

/-- The run-ons of the cells of a row. -/
def cellsRunOns : List (List Expr) → List (List Char)
  | [] => []
  | cell :: cells => allRunOns cell ++ cellsRunOns cells

end

/-! ### Delimiters and commands -/

/-- A text that does not go on with a sizing command in front of it, and has no stray words. -/
structure IsSizable (latex : List Char) : Prop where
  first : ∃ c ∈ latex.head?, isLetter c = false
  strays : Strays latex []

/-- The control words that a command puts directly in front of its argument. -/
def wordDelimiters : List (List Char) :=
  ["lfloor".toList, "lceil".toList]

/-- A control word that has gone on with the letters of an argument. -/
def IsRunOn (word : List Char) : Prop :=
  ∃ opening ∈ wordDelimiters, ∃ letters, letters ≠ [] ∧ (∀ c ∈ letters, isLetter c = true) ∧
    word = opening ++ letters

/-- A delimiter is left alone by letters behind it, or is one of the control words. -/
def IsOpening (opening : List Char) : Prop :=
  endsWithin opening = false ∨ ∃ word ∈ wordDelimiters, opening = '\\' :: word

/-- The LaTeX of a command is spelled out. -/
inductive UnaryCommand.IsSpelled : UnaryCommand → Prop
  | command {word : List Char} (h : Strays word []) : IsSpelled (.command word)
  | delimited {opening closing : List Char} (ho : IsSizable opening) (hopening : IsOpening opening)
    (hc : IsSizable closing) : IsSpelled (.delimited opening closing)

/-- The LaTeX of a command is spelled out. -/
inductive BinaryCommand.IsSpelled : BinaryCommand → Prop
  | command {word : List Char} (h : Strays word []) : IsSpelled (.command word)
  | root : IsSpelled .root
  | color : IsSpelled .color

section Forms

variable {cs ds : List Char} {words words' : List (List Char)}

theorem IsSizable.head?_append (h : IsSizable cs) (ds : List Char) :
    ∀ c ∈ (cs ++ ds).head?, isLetter c = false := by
  obtain ⟨c, hc, hletter⟩ := h.first
  rw [List.head?_append, Option.mem_def.mp hc, Option.some_or]
  rintro d ⟨⟩
  exact hletter

theorem IsSizable.command (h : IsSizable ds) (hcs : Strays cs []) : Strays (cs ++ ds) [] := by
  have hfirst := h.head?_append []
  rw [List.append_nil] at hfirst
  exact hcs.append h.strays (.inl hfirst)

theorem strays_left : Strays "\\left".toList [] :=
  strays_of_mem_writerTexts (by simp [writerTexts])

theorem strays_right : Strays "\\right".toList [] :=
  strays_of_mem_writerTexts (by simp [writerTexts])

/-- An argument in braces may have anything behind it. -/
theorem Strays.braced_append (hcs : Strays cs words) (hds : Strays ds words') :
    Strays (AsciiMath.braced cs ++ ds) (words ++ words') := by
  refine hcs.braced.append hds (.inr ?_)
  rw [AsciiMath.braced, ← List.cons_append, endsWithin_append]
  rfl

/-- Texts with a separator between them have their stray words, if no letter can go on with a
control word at either end of the separator. -/
theorem Strays.intercalate {separator : List Char} (hseparator : Strays separator [])
    (hhead : ∀ c ∈ separator.head?, isLetter c = false) (hall : separator.all isLetter = false)
    (hends : endsWithin separator = false) {texts : List (List Char)}
    (h : ∀ text ∈ texts, ShowsEnd text) :
    Strays (separator.intercalate texts) (texts.flatMap strayWords) := by
  induction texts with
  | nil => exact nil
  | cons text texts ih =>
    rw [List.forall_mem_cons] at h
    rw [List.flatMap_cons]
    cases texts with
    | nil =>
      rw [List.intercalate_singleton, List.flatMap_nil, List.append_nil]
      exact ⟨h.1, rfl⟩
    | cons next texts =>
      have htext : Strays text (strayWords text) := ⟨h.1, rfl⟩
      have hfirst : Strays (text ++ separator) (strayWords text) := by
        have happend := htext.append hseparator (.inl hhead)
        rwa [List.append_nil] at happend
      rw [List.intercalate_cons_cons]
      refine hfirst.append (ih h.2) (.inr ?_)
      rw [endsWithin_append, hends, hall, Bool.false_and, Bool.or_false]

theorem Strays.environment {name : String} (hname : '\\' ∉ name.toList) (h : Strays cs words) :
    Strays (environment name cs) words := by
  have hbegin : Strays ("\\begin".toList ++ AsciiMath.braced name.toList) [] :=
    (strays_of_mem_writerTexts (by simp [writerTexts])).append_braced (.of_not_mem hname)
  have hend : Strays (" \\end".toList ++ AsciiMath.braced name.toList) [] :=
    (strays_of_mem_writerTexts (by simp [writerTexts])).append_braced (.of_not_mem hname)
  have hbody : Strays (cs ++ (" \\end".toList ++ AsciiMath.braced name.toList)) (words ++ []) :=
    h.append hend (.inl (by rintro c ⟨⟩; decide))
  have hspace : '\\' ∉ [' '] := by decide
  have hblank : Strays (' ' :: (cs ++ (" \\end".toList ++ AsciiMath.braced name.toList)))
      (words ++ []) :=
    (Strays.of_not_mem hspace).append hbody (.inr (endsWithin_of_not_mem hspace))
  have hall := hbegin.append hblank (.inl (by rintro c ⟨⟩; decide))
  rw [List.append_nil, List.nil_append, ← List.append_assoc cs] at hall
  exact hall

theorem Strays.matrixLatex {opening closing : List Char} (ho : IsSizable (delimiter opening))
    (hc : IsSizable (delimiter closing)) (h : Strays cs words) :
    Strays (matrixLatex opening closing cs) words := by
  rw [AsciiMath.matrixLatex]
  split
  · exact h.environment (by decide)
  · split
    · exact h.environment (by decide)
    · have hinner : Strays (leftDelimiter opening ++ AsciiMath.environment "matrix" cs)
          ([] ++ words) :=
        (ho.command strays_left).append (h.environment (by decide))
          (.inl (by rintro c ⟨⟩; decide))
      have hall := hinner.append (hc.command strays_right) (.inl (by rintro c ⟨⟩; decide))
      rwa [List.append_nil, List.nil_append] at hall

/-- A script is a single character or in braces. -/
theorem Strays.script {mark : Char} (hmark : mark ≠ '\\') (h : Strays cs words) :
    Strays (mark :: scriptArgument cs) words := by
  have hmarks : '\\' ∉ [mark] := fun hmem ↦ hmark (List.mem_singleton.mp hmem).symm
  have hargument : Strays (scriptArgument cs) words := by
    unfold scriptArgument
    split
    · exact h
    · exact h.braced
  exact (Strays.of_not_mem hmarks).append hargument (.inr (endsWithin_of_not_mem hmarks))

end Forms

section Commands

variable {opening closing argument : List Char} {words : List (List Char)}

theorem endsWithin_of_endsWithControlWord {cs : List Char} (h : endsWithControlWord cs = true) :
    endsWithin cs = true := by
  obtain ⟨before, word, rfl, -, hletters, -⟩ := endsWithControlWord_iff.mp h
  rw [endsWithin_append, endsWithin, List.all_eq_true.mpr hletters]
  rfl

theorem isWord_wordDelimiters :
    ∀ word ∈ wordDelimiters, word.isEmpty = false ∧ word.all isLetter = true := by
  decide +kernel

/-- No longer control word than one of these delimiters is spelled out. -/
theorem wordDelimiters_longest :
    (spelledWords.all fun w ↦ wordDelimiters.all fun word ↦ !word.isPrefixOf w || w == word)
      = true := by
  decide +kernel

theorem eq_of_mem_wordDelimiters {word letters : List Char} (h : word ∈ wordDelimiters)
    (hspelled : word ++ letters ∈ spelledWords) : letters = [] := by
  have heither := List.all_eq_true.mp (List.all_eq_true.mp wordDelimiters_longest _ hspelled) _ h
  have hbegins : word.isPrefixOf (word ++ letters) = true :=
    List.isPrefixOf_iff_prefix.mpr (List.prefix_append _ _)
  rw [hbegins, Bool.not_true, Bool.false_or, beq_iff_eq] at heither
  exact List.append_right_eq_self.mp heither

/-- Behind an opening delimiter stand the stray words of the argument, and a run-on if there is one.
-/
theorem IsOpening.append (hopening : IsOpening opening) (ho : Strays opening [])
    (ha : Strays argument words) :
    Strays (opening ++ argument)
      ((UnaryCommand.delimited opening closing).runOns argument ++ words) := by
  rcases hopening with hends | ⟨word, hmem, rfl⟩
  · have hno : endsWithControlWord opening = false :=
      Bool.eq_false_iff.mpr (mt endsWithin_of_endsWithControlWord (Bool.eq_false_iff.mp hends))
    rw [UnaryCommand.runOns, hno]
    exact ho.append ha (.inr hends)
  · obtain ⟨hempty, hall⟩ := isWord_wordDelimiters word hmem
    have hne : word ≠ [] := List.isEmpty_eq_false_iff.mp hempty
    have hletters : ∀ c ∈ word, isLetter c = true := List.all_eq_true.mp hall
    refine ⟨.run hletters hne ha.shows, ?_⟩
    have hends : endsWithControlWord ('\\' :: word) = true :=
      endsWithControlWord_iff.mpr ⟨[], word, rfl, hne, hletters, by simp⟩
    have hspelled : word ∈ spelledWords := by
      have hrun := strayWords_run hletters hne []
      rw [List.append_nil, ho.words, List.takeWhile_nil, List.append_nil] at hrun
      by_contra hnot
      rw [if_neg hnot] at hrun
      cases hrun
    rw [strayWords_run hletters hne, ha.words, UnaryCommand.runOns, hends, Bool.true_and]
    congr 1
    cases argument with
    | nil => rw [List.takeWhile_nil, List.append_nil, if_pos hspelled]; rfl
    | cons c cs =>
      rw [List.head?_cons, Option.any_some]
      by_cases hc : isLetter c = true
      · -- no longer word is spelled out
        have hstray : word ++ (c :: cs).takeWhile isLetter ∉ spelledWords := by
          intro hlonger
          have hnone := eq_of_mem_wordDelimiters hmem hlonger
          rw [List.takeWhile_cons_of_pos hc] at hnone
          cases hnone
        rw [if_neg hstray, if_pos hc]
        rfl
      · rw [List.takeWhile_cons_of_neg hc, List.append_nil, if_pos hspelled, if_neg hc]

theorem UnaryCommand.IsSpelled.latex {command : UnaryCommand} (h : command.IsSpelled)
    (ha : Strays argument words) :
    Strays (command.latex argument) (command.runOns argument ++ words) := by
  cases h with
  | command hword => exact hword.append_braced ha
  | @delimited opening closing ho hopening hc =>
    have hopened : Strays (opening ++ argument)
        ((UnaryCommand.delimited opening closing).runOns argument ++ words) :=
      hopening.append ho.strays ha
    have hleft := strays_left.append hopened (.inl (ho.head?_append argument))
    have hright : ∀ c ∈ ("\\right".toList ++ closing).head?, isLetter c = false := by
      rintro c ⟨⟩
      decide
    have hall := hleft.append (hc.command strays_right) (.inl hright)
    rw [List.append_nil, List.nil_append] at hall
    show Strays ("\\left".toList ++ opening ++ argument ++ "\\right".toList ++ closing) _
    rw [List.append_assoc _ "\\right".toList closing,
      List.append_assoc "\\left".toList opening argument]
    exact hall

theorem BinaryCommand.IsSpelled.latex {command : BinaryCommand} (h : command.IsSpelled)
    {first second : List Char} {words' : List (List Char)} (hfirst : Strays first words)
    (hsecond : Strays second words') :
    Strays (command.latex first second) (words ++ words') := by
  cases h with
  | command hword => exact (hword.append_braced hfirst).append_braced hsecond
  | root =>
    have hopen : Strays ("\\sqrt[".toList ++ first) words :=
      (strays_of_mem_writerTexts (by simp [writerTexts])).append hfirst (.inr (by decide))
    have hclose : Strays ([']'] ++ braced second) words' :=
      (Strays.of_not_mem (by decide)).append_braced hsecond
    exact hopen.append hclose (.inl (by rintro c ⟨⟩; decide))
  | color =>
    have hcolor : Strays ("\\color".toList ++ (braced first ++ second)) (words ++ words') :=
      (strays_of_mem_writerTexts (by simp [writerTexts])).append (hfirst.braced_append hsecond)
        (.inl (by rintro c ⟨⟩; decide))
    show Strays (AsciiMath.braced ("\\color".toList ++ AsciiMath.braced first ++ second)) _
    rw [List.append_assoc "\\color".toList]
    exact hcolor.braced

end Commands

/-! ### Expressions -/

/-- An expression of which everything that is written as it is has no stray words. -/
inductive Expr.IsSpelled : Expr → Prop
  | atom {text : List Char} (h : Strays text []) : IsSpelled (.atom text)
  | verbatim {raw : List Char} (h : '\\' ∉ raw) : IsSpelled (.verbatim raw)
  | group {opening : List Char} {closing? : Option (List Char)} {body : List Expr}
    (ho : IsSizable (delimiter opening)) (hc : IsSizable (delimiter (closing?.getD [])))
    (hbody : ∀ e ∈ body, IsSpelled e) : IsSpelled (.group opening closing? body)
  | matrix {opening closing : List Char} {rows : List (List (List Expr))}
    (ho : IsSizable (delimiter opening)) (hc : IsSizable (delimiter closing))
    (hrows : ∀ row ∈ rows, ∀ cell ∈ row, ∀ e ∈ cell, IsSpelled e) :
    IsSpelled (.matrix opening closing rows)
  | unary {command : UnaryCommand} {argument : Expr} (hcommand : command.IsSpelled)
    (h : IsSpelled argument) : IsSpelled (.unary command argument)
  | textual {latex : List Char} {argument : Expr} (hlatex : Strays latex [])
    (h : IsSpelled argument) : IsSpelled (.textual latex argument)
  | binary {command : BinaryCommand} {first second : Expr} (hcommand : command.IsSpelled)
    (hfirst : IsSpelled first) (hsecond : IsSpelled second) :
    IsSpelled (.binary command first second)
  | script {base : Expr} {sub? sup? : Option Expr} (hbase : IsSpelled base)
    (hsub : ∀ e ∈ sub?, IsSpelled e) (hsup : ∀ e ∈ sup?, IsSpelled e) :
    IsSpelled (.script base sub? sup?)
  | fraction {numerator denominator : Expr} (hnumerator : IsSpelled numerator)
    (hdenominator : IsSpelled denominator) : IsSpelled (.fraction numerator denominator)

/-- What is written for an expression behind any text adds its run-ons to the stray words. -/
def Expr.WritesRunOns (e : Expr) : Prop :=
  ∀ bare out words, Strays out words → Strays (emit bare e out) (words ++ e.runOns)

theorem Expr.WritesRunOns.strays {e : Expr} (h : e.WritesRunOns) (bare : Bool) :
    Strays (emit bare e []) e.runOns := by
  have hempty := h bare [] [] .nil
  rwa [List.nil_append] at hempty

section Lists

theorem strays_emitAll {es : List Expr} (h : ∀ e ∈ es, e.WritesRunOns) {out : List Char}
    {words : List (List Char)} (hout : Strays out words) :
    Strays (emitAll es out) (words ++ allRunOns es) := by
  induction es generalizing out words with
  | nil =>
    rw [emitAll, allRunOns, List.append_nil]
    exact hout
  | cons e es ih =>
    rw [List.forall_mem_cons] at h
    rw [emitAll, allRunOns, ← List.append_assoc]
    exact ih h.2 (h.1 false out words hout)

theorem strays_emitScript {mark : Char} (hmark : mark ≠ '\\') {e? : Option Expr}
    (h : ∀ e ∈ e?, e.WritesRunOns) {out : List Char} {words : List (List Char)}
    (hout : Strays out words) :
    Strays (emitScript mark e? out) (words ++ scriptRunOns e?) := by
  cases e? with
  | none =>
    rw [emitScript, scriptRunOns, List.append_nil]
    exact hout
  | some e =>
    rw [emitScript, scriptRunOns]
    exact hout.push (.script hmark ((h e rfl).strays true))

theorem strays_cellTexts {cells : List (List Expr)}
    (h : ∀ cell ∈ cells, ∀ e ∈ cell, e.WritesRunOns) :
    (∀ text ∈ cellTexts cells, ShowsEnd text) ∧
      (cellTexts cells).flatMap strayWords = cellsRunOns cells := by
  induction cells with
  | nil => exact ⟨List.forall_mem_nil _, rfl⟩
  | cons cell cells ih =>
    rw [List.forall_mem_cons] at h
    obtain ⟨hshows, hwords⟩ := ih h.2
    have hcell := strays_emitAll h.1 .nil
    rw [cellTexts, cellsRunOns, List.forall_mem_cons, List.flatMap_cons, hwords, hcell.words]
    exact ⟨⟨hcell.shows, hshows⟩, rfl⟩

theorem strays_rowTexts {rows : List (List (List Expr))}
    (h : ∀ row ∈ rows, ∀ cell ∈ row, ∀ e ∈ cell, e.WritesRunOns) :
    (∀ text ∈ rowTexts rows, ShowsEnd text) ∧
      (rowTexts rows).flatMap strayWords = rowsRunOns rows := by
  induction rows with
  | nil => exact ⟨List.forall_mem_nil _, rfl⟩
  | cons row rows ih =>
    rw [List.forall_mem_cons] at h
    obtain ⟨hshows, hwords⟩ := ih h.2
    obtain ⟨hcellsShow, hcellsWords⟩ := strays_cellTexts h.1
    have hhead : ∀ c ∈ " & ".toList.head?, isLetter c = false := by
      rintro c ⟨⟩
      decide
    have hrow := Strays.intercalate (.of_not_mem (by decide)) hhead (by decide) (by decide)
      hcellsShow
    rw [rowTexts, rowsRunOns, List.forall_mem_cons, List.flatMap_cons, hwords, hrow.words,
      hcellsWords]
    exact ⟨⟨hrow.shows, hshows⟩, rfl⟩

end Lists

/-- **Only run-ons are stray in what is written for an expression.** -/
theorem Expr.IsSpelled.writesRunOns {e : Expr} (h : e.IsSpelled) : e.WritesRunOns := by
  induction h with
  | atom h =>
    intro bare out words hout
    exact hout.push h
  | verbatim h =>
    intro bare out words hout
    have htext : Strays "\\text".toList [] := strays_of_mem_writerTexts (by simp [writerTexts])
    exact hout.push (htext.append_braced (.of_not_mem h))
  | @group opening closing? body ho hc _ ih =>
    intro bare out words hout
    unfold emit
    split
    · have hopen := hout.push (ho.command strays_left)
      have hclose := (strays_emitAll ih hopen).push (hc.command strays_right)
      rw [List.append_nil, List.append_nil] at hclose
      exact hclose
    · exact strays_emitAll ih hout
  | matrix ho hc _ ih =>
    intro bare out words hout
    obtain ⟨hshows, hwords⟩ := strays_rowTexts ih
    have hhead : ∀ c ∈ " \\\\ ".toList.head?, isLetter c = false := by
      rintro c ⟨⟩
      decide
    have hrows := Strays.intercalate (strays_of_mem_writerTexts (by simp [writerTexts])) hhead
      (by decide) (by decide) hshows
    rw [hwords] at hrows
    unfold emit
    exact hout.push (.matrixLatex ho hc hrows)
  | unary hcommand _ ih =>
    intro bare out words hout
    unfold emit
    exact hout.push (hcommand.latex (ih.strays true))
  | @textual latex argument hlatex hargument ih =>
    intro bare out words hout
    cases hargument with
    | verbatim hraw => exact hout.push (hlatex.append_braced (.of_not_mem hraw))
    | _ =>
      rw [emit_textual (by rintro raw ⟨⟩)]
      exact hout.push (hlatex.append_braced (ih.strays true))
  | binary hcommand _ _ ihfirst ihsecond =>
    intro bare out words hout
    unfold emit
    exact hout.push (hcommand.latex (ihfirst.strays true) (ihsecond.strays true))
  | script _ _ _ ihbase ihsub ihsup =>
    intro bare out words hout
    have hbase := ihbase false out words hout
    have hsub : Strays (emitScript '_' _ _) _ := strays_emitScript (by decide) ihsub hbase
    have hsup : Strays (emitScript '^' _ _) _ := strays_emitScript (by decide) ihsup hsub
    unfold emit
    rw [List.append_assoc, List.append_assoc] at hsup
    rw [Expr.runOns, List.append_assoc]
    exact hsup
  | fraction _ _ ihnumerator ihdenominator =>
    intro bare out words hout
    have hfrac : Strays "\\frac".toList [] := strays_of_mem_writerTexts (by simp [writerTexts])
    unfold emit
    exact hout.push
      ((hfrac.append_braced (ihnumerator.strays true)).append_braced (ihdenominator.strays true))

/-! ### The table -/

/-- Whether what a symbol stands for shows its end, and does not go on with a sizing command where
it stands behind one. -/
def Role.looksSeparate (role : Role) : Bool :=
  role.texts.all showsEnd &&
    match role with
    | leftBracket latex | rightBracket latex => (delimiter latex).head?.any (!isLetter ·)
    | unary (.delimited opening closing) =>
      opening.head?.any (!isLetter ·) && closing.head?.any (!isLetter ·) &&
        (!endsWithin opening || wordDelimiters.any fun word ↦ opening == '\\' :: word)
    | _ => true

theorem looksSeparate_symbols : ∀ s ∈ symbols, s.role.looksSeparate = true := by
  decide +kernel

section Symbols

variable {input latex opening closing : List Char}

/-- What a symbol stands for is spelled out. -/
theorem strays_of_mem_symbols {s : Symbol} (hs : s ∈ symbols) {text : List Char}
    (htext : text ∈ s.role.texts) : Strays text [] := by
  have hlooks := (Bool.and_eq_true_iff.mp (looksSeparate_symbols s hs)).1
  exact .of_spelled (showsEnd_iff.mp (List.all_eq_true.mp hlooks text htext)) fun _ ↦
    mem_spelledWords_of_symbol hs htext

theorem strays_delimiter (h : Strays latex []) : Strays (delimiter latex) [] := by
  unfold delimiter
  split
  · exact .of_not_mem (by decide)
  · exact h

theorem isSizable_of_any (h : Strays latex []) (hfirst : latex.head?.any (!isLetter ·) = true) :
    IsSizable latex := by
  rw [Option.any_eq_true] at hfirst
  obtain ⟨c, hc, hletter⟩ := hfirst
  exact ⟨⟨c, hc, by simpa using hletter⟩, h⟩

theorem isSizable_leftBracket (h : ⟨input, .leftBracket opening⟩ ∈ symbols) :
    IsSizable (delimiter opening) := by
  have hlooks := (Bool.and_eq_true_iff.mp (looksSeparate_symbols _ h)).2
  exact isSizable_of_any (strays_delimiter (strays_of_mem_symbols h List.mem_cons_self)) hlooks

theorem isSizable_rightBracket (h : ⟨input, .rightBracket closing⟩ ∈ symbols) :
    IsSizable (delimiter closing) := by
  have hlooks := (Bool.and_eq_true_iff.mp (looksSeparate_symbols _ h)).2
  exact isSizable_of_any (strays_delimiter (strays_of_mem_symbols h List.mem_cons_self)) hlooks

theorem UnaryCommand.isSpelled_of_mem_symbols {command : UnaryCommand}
    (h : ⟨input, .unary command⟩ ∈ symbols) : command.IsSpelled := by
  have hlooks := (Bool.and_eq_true_iff.mp (looksSeparate_symbols _ h)).2
  cases command with
  | command word => exact .command (strays_of_mem_symbols h List.mem_cons_self)
  | delimited opening closing =>
    obtain ⟨hsizable, hword⟩ := Bool.and_eq_true_iff.mp hlooks
    have hisOpening : IsOpening opening := by
      rw [Bool.or_eq_true, Bool.not_eq_true', List.any_eq_true] at hword
      exact hword.imp_right fun ⟨word, hmem, heq⟩ ↦ ⟨word, hmem, beq_iff_eq.mp heq⟩
    obtain ⟨hopening, hclosing⟩ := Bool.and_eq_true_iff.mp hsizable
    exact .delimited (isSizable_of_any (strays_of_mem_symbols h List.mem_cons_self) hopening)
      hisOpening
      (isSizable_of_any (strays_of_mem_symbols h (List.mem_cons_of_mem _ List.mem_cons_self))
        hclosing)

theorem BinaryCommand.isSpelled_of_mem_symbols {command : BinaryCommand}
    (h : ⟨input, .binary command⟩ ∈ symbols) : command.IsSpelled := by
  cases command with
  | command word => exact .command (strays_of_mem_symbols h List.mem_cons_self)
  | root => exact .root
  | color => exact .color

end Symbols

/-! ### Reading -/

theorem Expr.isSpelled_ofGroup {opening : List Char} {closing? : Option (List Char)}
    {body : List Expr} (ho : IsSizable (delimiter opening))
    (hc : IsSizable (delimiter (closing?.getD []))) (h : ∀ e ∈ body, e.IsSpelled) :
    (ofGroup opening closing? body).IsSpelled := by
  rcases ofGroup_cases opening closing? body with ⟨closing, rows, rfl, hlooks, heq⟩ | heq <;>
    rw [heq]
  · refine .matrix ho hc (hlooks.forall_cells fun o c inner hmem ↦ ?_)
    cases h _ hmem with
    | group _ _ hinner => exact hinner
  · exact .group ho hc h

/-- What is read of a text without backslashes is spelled out by the table, or has no backslash. -/
theorem readingRule_isSpelled : ReadingRule ('\\' ∉ ·) Expr.IsSpelled where
  suffix hcs hsuffix hmem := hcs (hsuffix.subset hmem)
  atom hcs hpart := .atom (.of_not_mem fun hmem ↦ hcs (hpart.subset hmem))
  verbatim hcs hpart := .verbatim fun hmem ↦ hcs (hpart.subset hmem)
  constant hs := .atom (strays_of_mem_symbols hs List.mem_cons_self)
  rightBracket hs := .atom (strays_of_mem_symbols hs List.mem_cons_self)
  sign := by
    have hhat : Strays "\\hat".toList [] :=
      strays_of_mem_symbols (s := ⟨"hat".toList, .unary (.command "\\hat".toList)⟩)
        (by simp [symbols, unaryCommands]) List.mem_cons_self
    have hmissing : "\\hat\x7b\x7d".toList = "\\hat".toList ++ braced [] := by decide +kernel
    have hnone : showsEnd "\\_".toList = true ∧ controlWords "\\_".toList = [] := by decide +kernel
    simp only [List.forall_mem_cons]
    refine ⟨.atom (.of_spelled (showsEnd_iff.mp hnone.1) ?_), .atom ?_,
      .atom (.of_not_mem (by decide)), List.forall_mem_nil _⟩
    · rw [hnone.2]
      exact List.forall_mem_nil _
    · rw [hmissing]
      exact hhat.append_braced .nil
  ofGroup hs hclosing hbody := by
    refine Expr.isSpelled_ofGroup (isSizable_leftBracket hs) ?_ hbody
    rename_i closing? _
    cases closing? with
    | none => exact ⟨⟨'.', rfl, by decide⟩, .of_not_mem (by decide)⟩
    | some closing =>
      obtain ⟨input, hinput⟩ := hclosing closing rfl
      exact isSizable_rightBracket hinput
  unary hs h := .unary (UnaryCommand.isSpelled_of_mem_symbols hs) h
  textual hs h := .textual (strays_of_mem_symbols hs List.mem_cons_self) h
  binary hs hfirst hsecond := .binary (BinaryCommand.isSpelled_of_mem_symbols hs) hfirst hsecond
  script hbase hsub hsup := .script hbase hsub hsup
  fraction hnumerator hdenominator := .fraction hnumerator hdenominator

/-! ### Where run-ons come from -/

section RunOns

variable {p : List Char → Prop}

theorem forall_mem_allRunOns {es : List Expr} (h : ∀ e ∈ es, ∀ word ∈ e.runOns, p word) :
    ∀ word ∈ allRunOns es, p word := by
  induction es with
  | nil => exact List.forall_mem_nil _
  | cons e es ih =>
    rw [List.forall_mem_cons] at h
    rw [allRunOns, List.forall_mem_append]
    exact ⟨h.1, ih h.2⟩

theorem forall_mem_scriptRunOns {e? : Option Expr} (h : ∀ e ∈ e?, ∀ word ∈ e.runOns, p word) :
    ∀ word ∈ scriptRunOns e?, p word := by
  cases e? with
  | none => exact List.forall_mem_nil _
  | some e => exact h e rfl

theorem forall_mem_cellsRunOns {cells : List (List Expr)}
    (h : ∀ cell ∈ cells, ∀ e ∈ cell, ∀ word ∈ e.runOns, p word) :
    ∀ word ∈ cellsRunOns cells, p word := by
  induction cells with
  | nil => exact List.forall_mem_nil _
  | cons cell cells ih =>
    rw [List.forall_mem_cons] at h
    rw [cellsRunOns, List.forall_mem_append]
    exact ⟨forall_mem_allRunOns h.1, ih h.2⟩

theorem forall_mem_rowsRunOns {rows : List (List (List Expr))}
    (h : ∀ row ∈ rows, ∀ cell ∈ row, ∀ e ∈ cell, ∀ word ∈ e.runOns, p word) :
    ∀ word ∈ rowsRunOns rows, p word := by
  induction rows with
  | nil => exact List.forall_mem_nil _
  | cons row rows ih =>
    rw [List.forall_mem_cons] at h
    rw [rowsRunOns, List.forall_mem_append]
    exact ⟨forall_mem_cellsRunOns h.1, ih h.2⟩

end RunOns

theorem UnaryCommand.IsSpelled.isRunOn {command : UnaryCommand} (h : command.IsSpelled)
    (argument : List Char) : ∀ word ∈ command.runOns argument, IsRunOn word := by
  intro word hword
  cases h with
  | command => cases hword
  | @delimited opening closing ho hopening hc =>
    rw [UnaryCommand.runOns] at hword
    split at hword
    · next hcond =>
      obtain ⟨hends, hfirst⟩ := Bool.and_eq_true_iff.mp hcond
      rcases hopening with hno | ⟨delimiter, hmem, rfl⟩
      · rw [endsWithin_of_endsWithControlWord hends] at hno
        cases hno
      · refine ⟨delimiter, hmem, argument.takeWhile isLetter, ?_,
          fun c hc ↦ List.mem_takeWhile_imp hc, List.mem_singleton.mp hword⟩
        cases argument with
        | nil => cases hfirst
        | cons c cs =>
          have hletter : isLetter c = true := hfirst
          rw [List.takeWhile_cons_of_pos hletter]
          exact List.cons_ne_nil _ _
    · cases hword

/-- The only words that go on with an argument are delimiters that are control words. -/
theorem Expr.IsSpelled.isRunOn {e : Expr} (h : e.IsSpelled) : ∀ word ∈ e.runOns, IsRunOn word := by
  induction h with
  | atom | verbatim => exact List.forall_mem_nil _
  | group _ _ _ ih => exact forall_mem_allRunOns ih
  | matrix _ _ _ ih => exact forall_mem_rowsRunOns ih
  | unary hcommand _ ih =>
    rw [Expr.runOns, List.forall_mem_append]
    exact ⟨hcommand.isRunOn _, ih⟩
  | textual _ _ ih => exact ih
  | binary _ _ _ ihfirst ihsecond =>
    rw [Expr.runOns, List.forall_mem_append]
    exact ⟨ihfirst, ihsecond⟩
  | script _ _ _ ihbase ihsub ihsup =>
    rw [Expr.runOns, List.forall_mem_append, List.forall_mem_append]
    exact ⟨⟨ihbase, forall_mem_scriptRunOns ihsub⟩, forall_mem_scriptRunOns ihsup⟩
  | fraction _ _ ihnumerator ihdenominator =>
    rw [Expr.runOns, List.forall_mem_append]
    exact ⟨ihnumerator, ihdenominator⟩

/-- **Control words run into letters behind an opening delimiter, and nowhere else.** The control
words in the LaTeX of a text without backslashes are those that are spelled out in the table or by
the writer, but for the run-ons in what is read of the text. Each of these is `\lfloor` or `\lceil`
with the letters that the argument of the command begins with. -/
theorem strayWords_toLatex (text : List Char) (h : '\\' ∉ text) :
    strayWords (toLatex text) = allRunOns (parse text) ∧
      ∀ word ∈ allRunOns (parse text), IsRunOn word := by
  have hspelled := readingRule_isSpelled.parse h
  have hall := strays_emitAll (fun e he ↦ (hspelled e he).writesRunOns) .nil
  rw [List.nil_append] at hall
  exact ⟨hall.words, forall_mem_allRunOns fun e he ↦ (hspelled e he).isRunOn⟩

/-- Only one of the letters has a control word go on with it. -/
theorem strayWords_toLatex_floor :
    '\\' ∉ "alpha b sqrt x floor(n)c ceil(2n) abs d".toList ∧
      strayWords (toLatex "alpha b sqrt x floor(n)c ceil(2n) abs d".toList)
        = allRunOns (parse "alpha b sqrt x floor(n)c ceil(2n) abs d".toList) ∧
      ∀ word ∈ allRunOns (parse "alpha b sqrt x floor(n)c ceil(2n) abs d".toList), IsRunOn word :=
  have hslash : '\\' ∉ "alpha b sqrt x floor(n)c ceil(2n) abs d".toList := by decide +kernel
  ⟨hslash, strayWords_toLatex _ hslash⟩

/-- The delimiter in front of a letter becomes a control word that nobody spelled out. -/
theorem strayWords_toLatex_runs_on :
    ¬ ∀ word ∈ controlWords (toLatex "floor(x)".toList), word ∈ spelledWords := by
  have hmem : "lfloorx".toList ∈ controlWords (toLatex "floor(x)".toList) := by decide +kernel
  have hsplit : "lfloorx".toList = "lfloor".toList ++ ['x'] := by decide +kernel
  have hdelimiter : "lfloor".toList ∈ wordDelimiters := by decide +kernel
  intro h
  have hspelled := h _ hmem
  rw [hsplit] at hspelled
  cases eq_of_mem_wordDelimiters hdelimiter hspelled

end DocumentMath.AsciiMath
