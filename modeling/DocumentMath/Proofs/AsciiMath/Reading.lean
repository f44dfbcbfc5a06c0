import DocumentMath.Proofs.AsciiMath.Grammar

/-!
# What is read of a text

What a token keeps of the text is a part of it. Everything else in an expression comes from the
table of symbols or is made of expressions that have been read. So a property of expressions holds
of all that is read, if it holds of parts of the text and of symbols, and if each form keeps it
(`ReadingRule`, `ReadingRule.parse`).
-/

namespace DocumentMath.AsciiMath

/-- A property of texts that every suffix keeps, and a property of expressions that is kept by every
form, and that atoms and verbatim texts have if they are parts of such a text. -/
structure ReadingRule (Q : List Char → Prop) (P : Expr → Prop) : Prop where
  suffix {cs rest : List Char} : Q cs → rest <:+ cs → Q rest
  atom {cs text : List Char} : Q cs → text <:+: cs → P (.atom text)
  verbatim {cs text : List Char} : Q cs → text <:+: cs → P (.verbatim text)
  constant {input latex : List Char} : ⟨input, .constant latex⟩ ∈ symbols → P (.atom latex)
  rightBracket {input latex : List Char} :
    ⟨input, .rightBracket latex⟩ ∈ symbols → P (.atom latex)
  /-- Signs that take arguments are atoms where they have none. -/
  sign : ∀ latex ∈ ["\\_".toList, "\\hat\x7b\x7d".toList, ['/']], P (.atom latex)
  ofGroup {input opening : List Char} {closing? : Option (List Char)} {body : List Expr} :
    ⟨input, .leftBracket opening⟩ ∈ symbols →
    (∀ closing ∈ closing?, ∃ input, ⟨input, .rightBracket closing⟩ ∈ symbols) →
    (∀ e ∈ body, P e) → P (.ofGroup opening closing? body)
  unary {input : List Char} {command : UnaryCommand} {argument : Expr} :
    ⟨input, .unary command⟩ ∈ symbols → P argument → P (.unary command argument)
  textual {input latex : List Char} {argument : Expr} :
    ⟨input, .textual latex⟩ ∈ symbols → P argument → P (.textual latex argument)
  binary {input : List Char} {command : BinaryCommand} {first second : Expr} :
    ⟨input, .binary command⟩ ∈ symbols → P first → P second → P (.binary command first second)
  script {base : Expr} {sub? sup? : Option Expr} :
    P base → (∀ e ∈ sub?, P e) → (∀ e ∈ sup?, P e) → P (.script base sub? sup?)
  fraction {numerator denominator : Expr} :
    P numerator → P denominator → P (.fraction numerator denominator)

/-- That a property holds of all expressions of a phrase. -/
def Phrase.All (P : Expr → Prop) : Phrase → Prop
  | .simple e | .token e | .intermediate e | .item e | .entry _ e => P e
  | .script _ e? => ∀ e ∈ e?, P e
  | .list _ es => ∀ e ∈ es, P e

namespace ReadingRule

variable {Q : List Char → Prop} {P : Expr → Prop}

theorem withScripts (rule : ReadingRule Q P) {base : Expr} {sub? sup? : Option Expr}
    (hbase : P base) (hsub : ∀ e ∈ sub?, P e) (hsup : ∀ e ∈ sup?, P e) :
    P (withScripts base sub? sup?) := by
  unfold AsciiMath.withScripts
  split
  · exact hbase
  · exact rule.script hbase hsub hsup

theorem next? (rule : ReadingRule Q P) {cs rest : List Char} {t : Token} (hcs : Q cs)
    (h : next? cs = some (t, rest)) : Q rest :=
  rule.suffix hcs (suffix_of_next? h)

/-- A token that is an atom is a part of the text, or comes from the table, or is a sign. -/
theorem atom? (rule : ReadingRule Q P) {cs rest text : List Char} {t : Token} (hcs : Q cs)
    (h : AsciiMath.next? cs = some (t, rest)) (hatom : t.atom? = some text) : P (.atom text) := by
  cases t with
  | quoted => cases hatom
  | number =>
    cases hatom
    exact rule.atom hcs (infix_of_next?_number h)
  | character =>
    cases hatom
    exact rule.atom hcs (infix_of_next?_character h)
  | symbol s =>
    obtain ⟨input, role⟩ := s
    cases role with
    | constant =>
      cases hatom
      exact rule.constant (mem_symbols_of_next? h)
    | sub | sup | divide =>
      cases hatom
      exact rule.sign _ (by simp)
    | _ => cases hatom

/-- **Whatever is read follows the rule.** -/
theorem reads (rule : ReadingRule Q P) {p : Phrase} {s s' : Reading} (h : Reads p s s')
    (hs : Q s.rest) : p.All P := by
  induction h with
  | cut => exact rule.atom hs (infix_trim _)
  | nest _ _ ih => exact ih hs
  | missing => exact rule.atom hs List.nil_infix
  | atom next atom => exact rule.atom? hs next atom
  | bracket next | stray next => exact rule.rightBracket (mem_symbols_of_next? next)
  | quoted next => exact rule.verbatim hs (infix_of_next?_quoted next)
  | closed next _ close ih =>
    refine rule.ofGroup (mem_symbols_of_next? next) ?_ (ih (rule.next? hs next))
    rintro closing ⟨⟩
    exact ⟨_, mem_symbols_of_next? close⟩
  | unclosed next _ _ ih =>
    exact rule.ofGroup (mem_symbols_of_next? next) (by simp) (ih (rule.next? hs next))
  | unary next _ ih => exact rule.unary (mem_symbols_of_next? next) (ih (rule.next? hs next))
  | raw next group =>
    exact rule.textual (mem_symbols_of_next? next)
      (rule.verbatim (rule.next? hs next) (parts_of_rawGroup? group).1)
  | textual next _ _ ih =>
    exact rule.textual (mem_symbols_of_next? next) (ih (rule.next? hs next))
  | binary next first _ ih₁ ih₂ =>
    have hrest := rule.next? hs next
    exact rule.binary (mem_symbols_of_next? next) (ih₁ hrest) (ih₂ (rule.suffix hrest first.suffix))
  | noScript => exact fun e he ↦ absurd he (by simp)
  | script _ next _ ih =>
    intro e he
    cases he
    exact ih (rule.next? hs next)
  | scripts base sub _ _ ih₁ ih₂ ih₃ =>
    have hs₁ := rule.suffix hs base.suffix
    exact rule.withScripts (ih₁ hs) (ih₂ hs₁) (ih₃ (rule.suffix hs₁ sub.suffix))
  | late base _ sup _ ih₁ ih₂ ih₃ =>
    have hs₁ := rule.suffix hs base.suffix
    exact rule.withScripts (ih₁ hs) (ih₃ (rule.suffix hs₁ sup.suffix)) (ih₂ hs₁)
  | single _ _ ih | entry _ _ _ ih => exact ih hs
  | fraction numerator next _ ih₁ ih₂ =>
    exact rule.fraction (ih₁ hs) (ih₂ (rule.next? (rule.suffix hs numerator.suffix) next))
  | done | stop => exact List.forall_mem_nil _
  | more head _ ih₁ ih₂ =>
    exact List.forall_mem_cons.mpr ⟨ih₁ hs, ih₂ (rule.suffix hs head.suffix)⟩

/-- **Whatever is read of a text follows the rule.** -/
theorem parse (rule : ReadingRule Q P) {text : List Char} (h : Q text) :
    ∀ e ∈ parse text, P e := by
  obtain ⟨s, hread⟩ := reads_parse text
  exact rule.reads hread h

end ReadingRule

end DocumentMath.AsciiMath
