import DocumentMath.Proofs.AsciiMath.Tokens

/-!
# The grammar of AsciiMath

`Reads` is the grammar by which AsciiMath is read, with one rule for each way a phrase of it can be
made. The rules speak of where the reading stands before and after a phrase (`Reading`): what is
left of the text, and a counter of the nesting, which goes up for the token of a simple expression
and down again behind it. Beside these the rules count the right brackets that are taken where an
operand should stand, and the expressions that are cut off since they stand too deep.

The readers follow the rules: what they read is derived (`reads_parse`), and whatever is derived is
what they read (`Reads.parse_eq`). So a property of all that is read is shown rule by rule. The
first of these properties are here: each phrase moves forward in the text and leaves the nesting as
it was (`Reads.depth_eq`, `Reads.suffix`, `Reads.length_lt`), and a list ends at the end of the text
or, in a group, at a right bracket (`Reads.endsAt`).
-/

namespace DocumentMath.AsciiMath

/-! ### The rules -/

/-- What is counted on the way through a text. -/
structure Tally where
  /-- How many right brackets have been taken as operands. -/
  taken : Nat
  /-- How many expressions have been cut off, since they stand too deep. -/
  cuts : Nat
  deriving DecidableEq, Repr

/-- Where a reading stands. -/
structure Reading where
  /-- What is left of the text. -/
  rest : List Char
  /-- How deep the reading is nested. -/
  depth : Nat
  tally : Tally
  deriving DecidableEq, Repr

/-- The start of a text. -/
def Reading.start (text : List Char) : Reading :=
  ⟨text, 0, ⟨0, 0⟩⟩

/-- What a rule of the grammar is about. -/
inductive Phrase where
  /-- A simple expression: a token with its arguments, unless it stands too deep. -/
  | simple (e : Expr)
  /-- A token with its arguments. -/
  | token (e : Expr)
  /-- A script of the given role, if there is one. -/
  | script (role : Role) (e? : Option Expr)
  /-- A simple expression with its scripts. -/
  | intermediate (e : Expr)
  /-- An intermediate expression, or a fraction of two. -/
  | item (e : Expr)
  /-- One more expression of a list. -/
  | entry (inGroup : Bool) (e : Expr)
  /-- A list up to its end. -/
  | list (inGroup : Bool) (es : List Expr)

/-- The text of the atom that a token is where it has no arguments. A right bracket is left out,
since it closes a group. -/
def Token.atom? : Token → Option (List Char)
  | .number digits => some digits
  | .character c => some [c]
  | .symbol ⟨_, .constant latex⟩ => some latex
  | .symbol ⟨_, .sub⟩ => some "\\_".toList
  | .symbol ⟨_, .sup⟩ => some "\\hat\x7b\x7d".toList
  | .symbol ⟨_, .divide⟩ => some ['/']
  | _ => none

/-- Whether a token is a right bracket. -/
def Token.isRightBracket : Token → Bool
  | .symbol ⟨_, .rightBracket _⟩ => true
  | _ => false

theorem Token.isRightBracket_iff {t : Token} :
    t.isRightBracket = true ↔ ∃ input latex, t = .symbol ⟨input, .rightBracket latex⟩ := by
  unfold isRightBracket
  split
  · next input latex => simp
  · next hnot =>
    refine iff_of_false Bool.false_ne_true ?_
    rintro ⟨input, latex, rfl⟩
    exact hnot _ _ rfl

/-- The grammar: which phrases are read on the way from one place of a text to another. What stands
too deep is kept as it is written, up to the end of the text. -/
inductive Reads : Phrase → Reading → Reading → Prop
  | cut {s : Reading} (deep : maxDepth ≤ s.depth) :
    Reads (.simple (.atom (Text.trim s.rest))) s
      { s with rest := [], tally.cuts := s.tally.cuts + 1 }
  | nest {s s' : Reading} {e : Expr} (deep : s.depth < maxDepth)
    (inner : Reads (.token e) { s with depth := s.depth + 1 } s') :
    Reads (.simple e) s { s' with depth := s'.depth - 1 }
  | missing {s : Reading} (next : next? s.rest = none) : Reads (.token (.atom [])) s s
  | atom {s : Reading} {t : Token} {text rest : List Char} (next : next? s.rest = some (t, rest))
    (atom : t.atom? = some text) : Reads (.token (.atom text)) s { s with rest }
  /-- A right bracket that stands where an operand should. -/
  | bracket {s : Reading} {input latex rest : List Char}
    (next : next? s.rest = some (.symbol ⟨input, .rightBracket latex⟩, rest)) :
    Reads (.token (.atom latex)) s { s with rest, tally.taken := s.tally.taken + 1 }
  | quoted {s : Reading} {text rest : List Char} (next : next? s.rest = some (.quoted text, rest)) :
    Reads (.token (.verbatim text)) s { s with rest }
  | closed {s s' : Reading} {input opening input' closing rest rest' : List Char}
    {body : List Expr} (next : next? s.rest = some (.symbol ⟨input, .leftBracket opening⟩, rest))
    (inner : Reads (.list true body) { s with rest } s')
    (close : next? s'.rest = some (.symbol ⟨input', .rightBracket closing⟩, rest')) :
    Reads (.token (.ofGroup opening (some closing) body)) s { s' with rest := rest' }
  | unclosed {s s' : Reading} {input opening rest : List Char} {body : List Expr}
    (next : next? s.rest = some (.symbol ⟨input, .leftBracket opening⟩, rest))
    (inner : Reads (.list true body) { s with rest } s') (close : next? s'.rest = none) :
    Reads (.token (.ofGroup opening none body)) s { s' with rest := [] }
  | unary {s s' : Reading} {input rest : List Char} {command : UnaryCommand} {e : Expr}
    (next : next? s.rest = some (.symbol ⟨input, .unary command⟩, rest))
    (argument : Reads (.simple e) { s with rest } s') :
    Reads (.token (.unary command e)) s s'
  | raw {s : Reading} {input latex raw rest rest' : List Char}
    (next : next? s.rest = some (.symbol ⟨input, .textual latex⟩, rest))
    (group : rawGroup? rest = some (raw, rest')) :
    Reads (.token (.textual latex (.verbatim raw))) s { s with rest := rest' }
  | textual {s s' : Reading} {input latex rest : List Char} {e : Expr}
    (next : next? s.rest = some (.symbol ⟨input, .textual latex⟩, rest))
    (group : rawGroup? rest = none) (argument : Reads (.simple e) { s with rest } s') :
    Reads (.token (.textual latex e)) s s'
  | binary {s s' s'' : Reading} {input rest : List Char} {command : BinaryCommand} {e e' : Expr}
    (next : next? s.rest = some (.symbol ⟨input, .binary command⟩, rest))
    (first : Reads (.simple e) { s with rest } s') (second : Reads (.simple e') s' s'') :
    Reads (.token (.binary command e e')) s s''
  | noScript {s : Reading} {role : Role} (next : nextIs role s.rest = false) :
    Reads (.script role none) s s
  | script {s s' : Reading} {role : Role} {input rest : List Char} {e : Expr}
    (sign : role = .sub ∨ role = .sup) (next : next? s.rest = some (.symbol ⟨input, role⟩, rest))
    (argument : Reads (.simple e) { s with rest } s') : Reads (.script role (some e)) s s'
  | scripts {s s₁ s₂ s₃ : Reading} {e : Expr} {sub? sup? : Option Expr}
    (base : Reads (.simple e) s s₁) (sub : Reads (.script .sub sub?) s₁ s₂)
    (sup : Reads (.script .sup sup?) s₂ s₃) (order : sub? = none → sup? = none) :
    Reads (.intermediate (withScripts e sub? sup?)) s s₃
  /-- The subscript may come second. -/
  | late {s s₁ s₂ s₃ : Reading} {e e' : Expr} {sub? : Option Expr}
    (base : Reads (.simple e) s s₁) (none : nextIs .sub s₁.rest = false)
    (sup : Reads (.script .sup (some e')) s₁ s₂) (sub : Reads (.script .sub sub?) s₂ s₃) :
    Reads (.intermediate (withScripts e sub? (some e'))) s s₃
  | single {s s' : Reading} {e : Expr} (whole : Reads (.intermediate e) s s')
    (next : nextIs .divide s'.rest = false) : Reads (.item e) s s'
  | fraction {s s' s'' : Reading} {input rest : List Char} {e e' : Expr}
    (numerator : Reads (.intermediate e) s s')
    (next : next? s'.rest = some (.symbol ⟨input, .divide⟩, rest))
    (denominator : Reads (.intermediate e') { s' with rest } s'') :
    Reads (.item (.fraction e e')) s s''
  /-- Outside of all groups a right bracket is an atom. -/
  | stray {s : Reading} {input latex rest : List Char}
    (next : next? s.rest = some (.symbol ⟨input, .rightBracket latex⟩, rest)) :
    Reads (.entry false (.atom latex)) s { s with rest }
  | entry {s s' : Reading} {inGroup : Bool} {t : Token} {rest : List Char} {e : Expr}
    (next : next? s.rest = some (t, rest)) (bracket : t.isRightBracket = false)
    (item : Reads (.item e) s s') : Reads (.entry inGroup e) s s'
  | done {s : Reading} {inGroup : Bool} (next : next? s.rest = none) :
    Reads (.list inGroup []) s s
  /-- In a group the list ends in front of the right bracket. -/
  | stop {s : Reading} {input latex rest : List Char}
    (next : next? s.rest = some (.symbol ⟨input, .rightBracket latex⟩, rest)) :
    Reads (.list true []) s s
  | more {s s' s'' : Reading} {inGroup : Bool} {e : Expr} {es : List Expr}
    (head : Reads (.entry inGroup e) s s') (tail : Reads (.list inGroup es) s' s'') :
    Reads (.list inGroup (e :: es)) s s''

/-! ### Moving forward -/

/-- Whether a phrase takes at least one token if there is any. -/
def Phrase.takesToken : Phrase → Bool
  | .script .. | .list .. => false
  | _ => true

/-- Where a list ends there is no token any more, or in a group there is a right bracket. -/
def EndsAt (inGroup : Bool) (cs : List Char) : Prop :=
  next? cs = none ∨ inGroup = true ∧
    ∃ input latex rest, next? cs = some (.symbol ⟨input, .rightBracket latex⟩, rest)

namespace Reads

variable {p : Phrase} {s s' : Reading}

/-- **The nesting is what it was.** Whatever a phrase is, the counter stands behind it where it
stood in front. -/
theorem depth_eq (h : Reads p s s') : s'.depth = s.depth := by
  induction h with
  | cut | missing | atom | bracket | quoted | raw | noScript | stray | done | stop => rfl
  | nest _ _ ih => exact congrArg (· - 1) ih
  | closed _ _ _ ih | unclosed _ _ _ ih => exact ih
  | unary _ _ ih | textual _ _ _ ih | script _ _ _ ih | single _ _ ih | entry _ _ _ ih => exact ih
  | binary _ _ _ ih₁ ih₂ | fraction _ _ _ ih₁ ih₂ | more _ _ ih₁ ih₂ => exact ih₂.trans ih₁
  | scripts _ _ _ _ ih₁ ih₂ ih₃ | late _ _ _ _ ih₁ ih₂ ih₃ => exact ih₃.trans (ih₂.trans ih₁)

/-- What is left behind a phrase is a part of what was left in front of it. -/
theorem suffix (h : Reads p s s') : s'.rest <:+ s.rest := by
  induction h with
  | cut => exact List.nil_suffix
  | missing | noScript | done | stop => exact List.suffix_rfl
  | nest _ _ ih => exact ih
  | atom next | bracket next | quoted next | stray next => exact suffix_of_next? next
  | closed next _ close ih =>
    exact (suffix_of_next? close).trans (ih.trans (suffix_of_next? next))
  | unclosed => exact List.nil_suffix
  | unary next _ ih | textual next _ _ ih | script _ next _ ih =>
    exact ih.trans (suffix_of_next? next)
  | raw next group => exact (parts_of_rawGroup? group).2.trans (suffix_of_next? next)
  | binary next _ _ ih₁ ih₂ => exact ih₂.trans (ih₁.trans (suffix_of_next? next))
  | scripts _ _ _ _ ih₁ ih₂ ih₃ | late _ _ _ _ ih₁ ih₂ ih₃ => exact ih₃.trans (ih₂.trans ih₁)
  | single _ _ ih | entry _ _ _ ih => exact ih
  | fraction _ next _ ih₁ ih₂ => exact ih₂.trans ((suffix_of_next? next).trans ih₁)
  | more _ _ ih₁ ih₂ => exact ih₂.trans ih₁

/-- Phrases that take a token move forward as long as there is one. -/
theorem length_lt (h : Reads p s s') (hp : p.takesToken = true) (hnext : next? s.rest ≠ none) :
    s'.rest.length < s.rest.length := by
  induction h with
  | cut =>
    refine List.length_pos_of_ne_nil fun hnil ↦ hnext ?_
    rw [hnil]
    rfl
  | missing next => exact absurd next hnext
  | nest _ _ ih | single _ _ ih | entry _ _ _ ih => exact ih rfl hnext
  | atom next | bracket next | quoted next | stray next => exact length_lt_of_next? next
  | closed next inner close =>
    exact length_lt_of_suffix next ((suffix_of_next? close).trans inner.suffix)
  | unclosed next => exact length_lt_of_suffix next List.nil_suffix
  | unary next argument | textual next _ argument => exact length_lt_of_suffix next argument.suffix
  | raw next group => exact length_lt_of_suffix next (parts_of_rawGroup? group).2
  | binary next first second =>
    exact length_lt_of_suffix next (second.suffix.trans first.suffix)
  | noScript | script | done | stop | more => cases hp
  | scripts _ sub sup _ ih =>
    exact Nat.lt_of_le_of_lt (sup.suffix.trans sub.suffix).length_le (ih rfl hnext)
  | late _ _ sup sub ih =>
    exact Nat.lt_of_le_of_lt (sub.suffix.trans sup.suffix).length_le (ih rfl hnext)
  | fraction _ next denominator ih =>
    refine Nat.lt_of_le_of_lt ?_ (ih rfl hnext)
    exact (denominator.suffix.trans (suffix_of_next? next)).length_le

theorem endsAt {inGroup : Bool} {es : List Expr} (h : Reads (.list inGroup es) s s') :
    EndsAt inGroup s'.rest := by
  generalize hp : Phrase.list inGroup es = p at h
  induction h generalizing es with
  | done next => exact .inl next
  | stop next =>
    cases hp
    exact .inr ⟨rfl, _, _, _, next⟩
  | more _ _ _ ih =>
    cases hp
    exact ih rfl
  | _ => cases hp

/-- Outside of all groups a list ends with the text. -/
theorem next?_eq_none {es : List Expr} (h : Reads (.list false es) s s') :
    next? s'.rest = none := by
  rcases h.endsAt with hnone | ⟨hin, -⟩
  · exact hnone
  · cases hin

end Reads

/-! ### What is read is derived -/

/-- What a reader reads at some depth is derived. -/
def Follows (depth : Nat) (reader : Reader) (phrase : Expr → Phrase) :
    Prop :=
  ∀ ⦃cs e rest⦄, reader cs = (e, rest) → ∀ tally,
    ∃ tally', Reads (phrase e) ⟨cs, depth, tally⟩ ⟨rest, depth, tally'⟩

theorem script?_cases {reader : Reader} {role : Role} {cs rest : List Char} {e? : Option Expr}
    (h : script? reader role cs = (e?, rest)) :
    (nextIs role cs = false ∧ e? = none ∧ rest = cs) ∨
      ∃ input cs' e, next? cs = some (.symbol ⟨input, role⟩, cs') ∧ reader cs' = (e, rest) ∧
        e? = some e := by
  unfold script? at h
  split at h
  · next hnext =>
    obtain ⟨input, cs', hsymbol⟩ := nextIs_iff.mp hnext
    rw [skipToken_of_next? hsymbol] at h
    obtain ⟨rfl, rfl⟩ := Prod.mk.inj h
    exact .inr ⟨input, cs', _, hsymbol, rfl, rfl⟩
  · next hnext =>
    obtain ⟨rfl, rfl⟩ := Prod.mk.inj h
    exact .inl ⟨Bool.eq_false_iff.mpr hnext, rfl, rfl⟩

namespace Follows

variable {depth : Nat} {reader : Reader} {cs rest : List Char}

theorem script? (h : Follows depth reader .simple) {role : Role}
    (hsign : role = .sub ∨ role = .sup) {e? : Option Expr}
    (hread : script? reader role cs = (e?, rest)) (tally : Tally) :
    ∃ tally', Reads (.script role e?) ⟨cs, depth, tally⟩ ⟨rest, depth, tally'⟩ := by
  rcases script?_cases hread with ⟨hnext, rfl, rfl⟩ | ⟨input, cs', e, hnext, hargument, rfl⟩
  · exact ⟨tally, .noScript hnext⟩
  · obtain ⟨tally', hderived⟩ := h hargument tally
    exact ⟨tally', .script hsign hnext hderived⟩

theorem intermediate (h : Follows depth reader .simple) :
    Follows depth (intermediate reader) .intermediate := by
  intro cs e rest hread tally
  rcases hbase : reader cs with ⟨base, cs₁⟩
  rcases hsub : AsciiMath.script? reader .sub cs₁ with ⟨sub?, cs₂⟩
  rcases hsup : AsciiMath.script? reader .sup cs₂ with ⟨sup?, cs₃⟩
  obtain ⟨tally₁, hbase'⟩ := h hbase tally
  obtain ⟨tally₂, hsub'⟩ := h.script? (.inl rfl) hsub tally₁
  simp only [AsciiMath.intermediate, hbase, hsub, hsup] at hread
  split at hread
  · next sup =>
    rcases hlate : AsciiMath.script? reader .sub cs₃ with ⟨late?, cs₄⟩
    rw [hlate] at hread
    obtain ⟨rfl, rfl⟩ := Prod.mk.inj hread
    obtain ⟨hnext, -, rfl⟩ := (script?_cases hsub).resolve_right (by simp)
    obtain ⟨tally₃, hsup'⟩ := h.script? (.inr rfl) hsup tally₁
    obtain ⟨tally₄, hlate'⟩ := h.script? (.inl rfl) hlate tally₃
    exact ⟨tally₄, .late hbase' hnext hsup' hlate'⟩
  · next hnot =>
    obtain ⟨rfl, rfl⟩ := Prod.mk.inj hread
    obtain ⟨tally₃, hsup'⟩ := h.script? (.inr rfl) hsup tally₂
    refine ⟨tally₃, .scripts hbase' hsub' hsup' ?_⟩
    rintro rfl
    cases sup? with
    | none => rfl
    | some sup => exact absurd rfl (hnot sup rfl)

theorem item (h : Follows depth reader .simple) : Follows depth (item reader) .item := by
  intro cs e rest hread tally
  rcases hfirst : AsciiMath.intermediate reader cs with ⟨first, cs₁⟩
  obtain ⟨tally₁, hfirst'⟩ := h.intermediate hfirst tally
  simp only [AsciiMath.item, hfirst] at hread
  split at hread
  · next hnext =>
    obtain ⟨input, cs₂, hdivide⟩ := nextIs_iff.mp hnext
    rw [skipToken_of_next? hdivide] at hread
    rcases hsecond : AsciiMath.intermediate reader cs₂ with ⟨second, cs₃⟩
    rw [hsecond] at hread
    obtain ⟨rfl, rfl⟩ := Prod.mk.inj hread
    obtain ⟨tally₂, hsecond'⟩ := h.intermediate hsecond tally₁
    exact ⟨tally₂, .fraction hfirst' hdivide hsecond'⟩
  · next hnext =>
    obtain ⟨rfl, rfl⟩ := Prod.mk.inj hread
    exact ⟨tally₁, .single hfirst' (Bool.eq_false_iff.mpr hnext)⟩

/-- With as many steps as there are characters a list is read up to its end. -/
theorem items (h : Follows depth reader .simple) {inGroup : Bool} {steps : Nat}
    {es : List Expr} (hread : items reader inGroup steps cs = (es, rest))
    (hsteps : cs.length ≤ steps) (tally : Tally) :
    ∃ tally', Reads (.list inGroup es) ⟨cs, depth, tally⟩ ⟨rest, depth, tally'⟩ := by
  induction steps generalizing cs es rest tally with
  | zero =>
    obtain rfl := List.eq_nil_of_length_eq_zero (Nat.le_zero.mp hsteps)
    obtain ⟨rfl, rfl⟩ := Prod.mk.inj hread
    exact ⟨tally, .done rfl⟩
  | succ steps ih =>
    -- what one more entry leaves is shorter, so that the steps are still enough
    have hmore : ∀ {e es' cs' rest' tally'},
        Reads (.entry inGroup e) ⟨cs, depth, tally⟩ ⟨cs', depth, tally'⟩ →
        next? cs ≠ none → AsciiMath.items reader inGroup steps cs' = (es', rest') →
        ∃ tally'', Reads (.list inGroup (e :: es')) ⟨cs, depth, tally⟩
          ⟨rest', depth, tally''⟩ := by
      intro e es' cs' rest' tally' hentry hnext hrest
      have hlt : cs'.length < cs.length := hentry.length_lt rfl hnext
      obtain ⟨tally'', hlist⟩ := ih hrest (by omega) tally'
      exact ⟨tally'', .more hentry hlist⟩
    unfold AsciiMath.items at hread
    split at hread
    · next hnext =>
      obtain ⟨rfl, rfl⟩ := Prod.mk.inj hread
      exact ⟨tally, .done hnext⟩
    · next input latex cs₁ hnext =>
      split at hread
      · next hin =>
        obtain ⟨rfl, rfl⟩ := Prod.mk.inj hread
        rw [hin]
        exact ⟨tally, .stop hnext⟩
      · next hin =>
        rcases hrest : AsciiMath.items reader inGroup steps cs₁ with ⟨more, cs₂⟩
        rw [hrest] at hread
        obtain ⟨rfl, rfl⟩ := Prod.mk.inj hread
        obtain rfl := Bool.eq_false_iff.mpr hin
        exact hmore (.stray hnext) (by simp [hnext]) hrest
    · next pair hnot hnext =>
      obtain ⟨t, cs₀⟩ := pair
      rcases hfirst : AsciiMath.item reader cs with ⟨first, cs₁⟩
      rcases hrest : AsciiMath.items reader inGroup steps cs₁ with ⟨more, cs₂⟩
      simp only [hfirst, hrest] at hread
      obtain ⟨rfl, rfl⟩ := Prod.mk.inj hread
      obtain ⟨tally', hitem⟩ := h.item hfirst tally
      have hbracket : t.isRightBracket = false := by
        by_contra hright
        obtain ⟨input, latex, rfl⟩ := Token.isRightBracket_iff.mp (Bool.not_eq_false _ ▸ hright)
        exact hnot _ _ _ rfl
      exact hmore (.entry hnext hbracket hitem) (by simp [hnext]) hrest

theorem list (h : Follows depth reader .simple) {inGroup : Bool} {es : List Expr}
    (hread : list reader inGroup cs = (es, rest)) (tally : Tally) :
    ∃ tally', Reads (.list inGroup es) ⟨cs, depth, tally⟩ ⟨rest, depth, tally'⟩ :=
  h.items hread (Nat.le_refl _) tally

/-- A group ends with its own right bracket, or with the text. -/
theorem group (h : Follows depth reader .simple) {input opening cs₀ : List Char} {e : Expr}
    (hnext : next? cs₀ = some (.symbol ⟨input, .leftBracket opening⟩, cs))
    (hread : group reader opening cs = (e, rest)) (tally : Tally) :
    ∃ tally', Reads (.token e) ⟨cs₀, depth, tally⟩ ⟨rest, depth, tally'⟩ := by
  rcases hbody : AsciiMath.list reader true cs with ⟨body, cs₁⟩
  obtain ⟨tally', hbody'⟩ := h.list hbody tally
  simp only [AsciiMath.group, hbody] at hread
  split at hread
  · next input' closing cs₂ hclose =>
    obtain ⟨rfl, rfl⟩ := Prod.mk.inj hread
    have hclosed := Reads.closed (s := ⟨cs₀, depth, tally⟩) hnext hbody' hclose
    exact ⟨tally', hclosed⟩
  · next hnot =>
    have hclose : next? cs₁ = none := by
      refine hbody'.endsAt.resolve_right ?_
      rintro ⟨-, input', closing, cs₂, hclose⟩
      exact hnot _ _ _ hclose
    rw [skipToken_of_next?_eq_none hclose] at hread
    obtain ⟨rfl, rfl⟩ := Prod.mk.inj hread
    have hunclosed := Reads.unclosed (s := ⟨cs₀, depth, tally⟩) hnext hbody' hclose
    exact ⟨tally', hunclosed⟩

theorem ofRole (h : Follows depth reader .simple) {input cs₀ : List Char} {role : Role}
    {e : Expr} (hnext : next? cs₀ = some (.symbol ⟨input, role⟩, cs))
    (hread : ofRole reader role cs = (e, rest)) (tally : Tally) :
    ∃ tally', Reads (.token e) ⟨cs₀, depth, tally⟩ ⟨rest, depth, tally'⟩ := by
  cases role with
  | constant latex =>
    obtain ⟨rfl, rfl⟩ := Prod.mk.inj hread
    exact ⟨tally, .atom hnext rfl⟩
  | leftBracket opening => exact h.group hnext hread tally
  | rightBracket latex =>
    obtain ⟨rfl, rfl⟩ := Prod.mk.inj hread
    exact ⟨_, .bracket hnext⟩
  | unary command =>
    rcases hargument : reader cs with ⟨argument, cs₁⟩
    simp only [AsciiMath.ofRole, hargument] at hread
    obtain ⟨rfl, rfl⟩ := Prod.mk.inj hread
    obtain ⟨tally', hargument'⟩ := h hargument tally
    exact ⟨tally', .unary hnext hargument'⟩
  | textual latex =>
    simp only [AsciiMath.ofRole] at hread
    split at hread
    · next raw cs₁ hraw =>
      obtain ⟨rfl, rfl⟩ := Prod.mk.inj hread
      exact ⟨tally, .raw hnext hraw⟩
    · next hraw =>
      rcases hargument : reader cs with ⟨argument, cs₁⟩
      simp only [hargument] at hread
      obtain ⟨rfl, rfl⟩ := Prod.mk.inj hread
      obtain ⟨tally', hargument'⟩ := h hargument tally
      exact ⟨tally', .textual hnext hraw hargument'⟩
  | binary command =>
    rcases hfirst : reader cs with ⟨first, cs₁⟩
    rcases hsecond : reader cs₁ with ⟨second, cs₂⟩
    simp only [AsciiMath.ofRole, hfirst, hsecond] at hread
    obtain ⟨rfl, rfl⟩ := Prod.mk.inj hread
    obtain ⟨tally₁, hfirst'⟩ := h hfirst tally
    obtain ⟨tally₂, hsecond'⟩ := h hsecond tally₁
    exact ⟨tally₂, .binary hnext hfirst' hsecond'⟩
  | sub | sup | divide =>
    obtain ⟨rfl, rfl⟩ := Prod.mk.inj hread
    exact ⟨tally, .atom hnext rfl⟩

theorem token (h : Follows depth reader .simple) : Follows depth (token reader) .token := by
  intro cs e rest hread tally
  unfold AsciiMath.token at hread
  split at hread
  · next hnext =>
    obtain ⟨rfl, rfl⟩ := Prod.mk.inj hread
    exact ⟨tally, .missing hnext⟩
  · next text cs₁ hnext =>
    obtain ⟨rfl, rfl⟩ := Prod.mk.inj hread
    exact ⟨tally, .quoted hnext⟩
  · next digits cs₁ hnext =>
    obtain ⟨rfl, rfl⟩ := Prod.mk.inj hread
    exact ⟨tally, .atom hnext rfl⟩
  · next c cs₁ hnext =>
    obtain ⟨rfl, rfl⟩ := Prod.mk.inj hread
    exact ⟨tally, .atom hnext rfl⟩
  · next s cs₁ hnext =>
    obtain ⟨input, role⟩ := s
    exact h.ofRole hnext hread tally

/-- Each level that is left is one that the nesting has not reached. -/
theorem simple {levels : Nat} (h : depth + levels = maxDepth) :
    Follows depth (simple levels) .simple := by
  induction levels generalizing depth with
  | zero =>
    intro cs e rest hread tally
    obtain ⟨rfl, rfl⟩ := Prod.mk.inj hread
    have hcut := Reads.cut (s := ⟨cs, depth, tally⟩) (Nat.le_of_eq h.symm)
    exact ⟨_, hcut⟩
  | succ levels ih =>
    intro cs e rest hread tally
    have hinner : Follows (depth + 1) (AsciiMath.simple levels) .simple := ih (by omega)
    obtain ⟨tally', htoken⟩ := hinner.token hread tally
    have hnest := Reads.nest (s := ⟨cs, depth, tally⟩) (show depth < maxDepth by omega) htoken
    exact ⟨tally', hnest⟩

end Follows

/-- **What is read is derived.** -/
theorem reads_parse (text : List Char) :
    ∃ s, Reads (.list false (parse text)) (.start text) s := by
  rcases hread : list (simple maxDepth) false text with ⟨es, rest⟩
  have hfollows : Follows 0 (simple maxDepth) .simple := .simple (Nat.zero_add maxDepth)
  obtain ⟨tally, hderived⟩ := hfollows.list hread ⟨0, 0⟩
  rw [parse, hread]
  exact ⟨_, hderived⟩

/-! ### What is derived is read -/

/-- The reader for simple expressions at some depth. -/
def simpleAt (depth : Nat) : Reader :=
  simple (maxDepth - depth)

theorem simpleAt_of_le {depth : Nat} (h : maxDepth ≤ depth) (cs : List Char) :
    simpleAt depth cs = (.atom (Text.trim cs), []) := by
  rw [simpleAt, Nat.sub_eq_zero_of_le h]
  rfl

theorem simpleAt_of_lt {depth : Nat} (h : depth < maxDepth) :
    simpleAt depth = token (simpleAt (depth + 1)) := by
  have hlevels : maxDepth - depth = maxDepth - (depth + 1) + 1 := by omega
  rw [simpleAt, simpleAt, hlevels]
  rfl

/-- That the readers take a phrase off the front of a text. A list is read with any number of steps
that is enough, and an entry is what one more step adds to it. -/
def Phrase.IsRead (s : Reading) (rest : List Char) : Phrase → Prop
  | .simple e => simpleAt s.depth s.rest = (e, rest)
  | .token e => AsciiMath.token (simpleAt s.depth) s.rest = (e, rest)
  | .script role e? => script? (simpleAt s.depth) role s.rest = (e?, rest)
  | .intermediate e => AsciiMath.intermediate (simpleAt s.depth) s.rest = (e, rest)
  | .item e => AsciiMath.item (simpleAt s.depth) s.rest = (e, rest)
  | .entry inGroup e => ∀ steps es rest',
    items (simpleAt s.depth) inGroup steps rest = (es, rest') →
      items (simpleAt s.depth) inGroup (steps + 1) s.rest = (e :: es, rest')
  | .list inGroup es => ∀ steps, s.rest.length ≤ steps →
    items (simpleAt s.depth) inGroup steps s.rest = (es, rest)

section Steps

variable {reader : Reader} {inGroup : Bool} {cs rest : List Char} {t : Token}

theorem items_of_next?_eq_none (h : next? cs = none) (steps : Nat) :
    items reader inGroup steps cs = ([], cs) := by
  cases steps with
  | zero => rfl
  | succ steps => rw [items, h]

/-- A token that is an atom is read as one. -/
theorem token_of_atom? {text : List Char} (h : next? cs = some (t, rest))
    (hatom : t.atom? = some text) : token reader cs = (.atom text, rest) := by
  rw [token, h]
  cases t with
  | quoted => cases hatom
  | number | character =>
    cases hatom
    rfl
  | symbol s =>
    obtain ⟨input, role⟩ := s
    cases role with
    | constant | sub | sup | divide =>
      cases hatom
      rfl
    | _ => cases hatom

theorem items_of_next? {steps : Nat} (h : next? cs = some (t, rest))
    (hbracket : t.isRightBracket = false) :
    items reader inGroup (steps + 1) cs =
      ((item reader cs).1 :: (items reader inGroup steps (item reader cs).2).1,
        (items reader inGroup steps (item reader cs).2).2) := by
  rw [items]
  split
  · next hnone =>
    rw [h] at hnone
    cases hnone
  · next input latex rest' hright =>
    rw [h] at hright
    obtain ⟨rfl, rfl⟩ := Prod.mk.inj (Option.some.inj hright)
    cases hbracket
  · rfl

end Steps

namespace Reads

variable {p : Phrase} {s s' : Reading}

/-- There is one more expression in a list only if there is a token. -/
theorem next?_ne_none {inGroup : Bool} {e : Expr} (h : Reads (.entry inGroup e) s s') :
    next? s.rest ≠ none := by
  cases h with
  | stray next | entry next => simp [next]

theorem isRead (h : Reads p s s') : p.IsRead s s'.rest := by
  induction h with
  | cut deep => exact simpleAt_of_le deep _
  | nest deep _ ih =>
    rw [Phrase.IsRead, simpleAt_of_lt deep]
    exact ih
  | missing next => rw [Phrase.IsRead, token, next]
  | atom next atom => exact token_of_atom? next atom
  | bracket next =>
    rw [Phrase.IsRead, token, next]
    rfl
  | quoted next => rw [Phrase.IsRead, token, next]
  | raw next group =>
    rw [Phrase.IsRead, token, next]
    simp only [ofRole, group]
  | closed next inner close ih =>
    rw [Phrase.IsRead, token, next]
    simp only [ofRole, AsciiMath.group, AsciiMath.list]
    rw [ih _ (Nat.le_refl _)]
    simp only [close]
  | unclosed next inner close ih =>
    rw [Phrase.IsRead, token, next]
    simp only [ofRole, AsciiMath.group, AsciiMath.list]
    rw [ih _ (Nat.le_refl _)]
    simp only [close, skipToken_of_next?_eq_none close]
  | unary next argument ih =>
    rw [Phrase.IsRead, token, next]
    simp only [ofRole]
    rw [ih]
  | textual next group argument ih =>
    rw [Phrase.IsRead, token, next]
    simp only [ofRole, group]
    rw [ih]
  | binary next first second ih₁ ih₂ =>
    rw [Phrase.IsRead, first.depth_eq] at ih₂
    rw [Phrase.IsRead, token, next]
    simp only [ofRole]
    rw [ih₁]
    simp only [ih₂]
  | noScript next =>
    rw [Phrase.IsRead, script?, next]
    rfl
  | script _ next argument ih =>
    rw [Phrase.IsRead, script?, if_pos (nextIs_iff.mpr ⟨_, _, next⟩), skipToken_of_next? next, ih]
  | scripts base sub sup order ih₁ ih₂ ih₃ =>
    simp only [Phrase.IsRead, sub.depth_eq, base.depth_eq] at ih₁ ih₂ ih₃ ⊢
    simp only [AsciiMath.intermediate, ih₁, ih₂, ih₃]
    split
    · cases order rfl
    · rfl
  | @late s s₁ s₂ s₃ e e' sub? base none sup sub ih₁ ih₂ ih₃ =>
    simp only [Phrase.IsRead, sup.depth_eq, base.depth_eq] at ih₁ ih₂ ih₃ ⊢
    have hnone : script? (simpleAt s.depth) .sub s₁.rest = (Option.none, s₁.rest) := by
      rw [script?, none]
      rfl
    simp only [AsciiMath.intermediate, ih₁, hnone, ih₂, ih₃]
  | single whole next ih =>
    simp only [Phrase.IsRead] at ih ⊢
    simp only [AsciiMath.item, ih, next]
    rfl
  | fraction numerator next denominator ih₁ ih₂ =>
    simp only [Phrase.IsRead, numerator.depth_eq] at ih₁ ih₂ ⊢
    simp only [AsciiMath.item, ih₁]
    rw [if_pos (nextIs_iff.mpr ⟨_, _, next⟩), skipToken_of_next? next, ih₂]
  | stray next =>
    intro steps es rest' hrest
    rw [items, next]
    simp only [hrest]
    rfl
  | entry next bracket item ih =>
    intro steps es rest' hrest
    rw [items_of_next? next bracket, ih, hrest]
  | done next => exact fun steps _ ↦ items_of_next?_eq_none next steps
  | stop next =>
    intro steps hsteps
    cases steps with
    | zero =>
      have hlt := length_lt_of_next? next
      omega
    | succ steps =>
      rw [items, next]
      rfl
  | more head tail ih₁ ih₂ =>
    intro steps hsteps
    have hlt := head.length_lt rfl head.next?_ne_none
    obtain ⟨steps, rfl⟩ : ∃ n, steps = n + 1 := ⟨steps - 1, by omega⟩
    simp only [Phrase.IsRead, head.depth_eq] at ih₁ ih₂
    exact ih₁ _ _ _ (ih₂ _ (by omega))

/-- **What is derived is read.** -/
theorem list_eq {inGroup : Bool} {es : List Expr} (h : Reads (.list inGroup es) s s') :
    list (simpleAt s.depth) inGroup s.rest = (es, s'.rest) :=
  h.isRead _ (Nat.le_refl _)

theorem parse_eq {text : List Char} {es : List Expr}
    (h : Reads (.list false es) (.start text) s) : parse text = es :=
  congrArg Prod.fst h.list_eq

end Reads

end DocumentMath.AsciiMath
