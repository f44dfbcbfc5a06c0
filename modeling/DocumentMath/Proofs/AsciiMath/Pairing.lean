import DocumentMath.Proofs.AsciiMath.Weight
import Mathlib.Data.List.Forall2

/-!
# Which brackets close a group

A right bracket closes a group, unless it stands where an operand should: then it is taken as the
operand, and the group is left open. In a text whose brackets are balanced this is the only way for
a group not to be closed: there are as many open groups as right brackets taken as operands. If
every operand stands where it should (`operandsStand`), there are none of either.
-/

namespace DocumentMath.AsciiMath

/-! ### The tokens of a text -/

/-- At most `steps` tokens of a text. -/
def tokensIn : (steps : Nat) → List Char → List Token
  | 0, _ => []
  | steps + 1, cs =>
    match next? cs with
    | none => []
    | some (t, rest) => t :: tokensIn steps rest

/-- The tokens of a text, which are at most as many as its characters. -/
def tokens (text : List Char) : List Token :=
  tokensIn text.length text

/-- Whether a token is a left bracket. -/
def Token.isLeftBracket : Token → Bool
  | .symbol ⟨_, .leftBracket _⟩ => true
  | _ => false

/-- Whether a token is a text in double quotes, or a command whose argument is text. -/
def Token.isText : Token → Bool
  | .quoted _ => true
  | .symbol ⟨_, .textual _⟩ => true
  | _ => false

section Tokens

variable {cs rest : List Char} {t : Token}

/-- More steps than there are characters find no more tokens. -/
theorem tokensIn_congr {m n : Nat} (hm : cs.length ≤ m) (hn : cs.length ≤ n) :
    tokensIn m cs = tokensIn n cs := by
  have hnil (n : Nat) : tokensIn n [] = [] := by cases n <;> rfl
  induction m generalizing n cs with
  | zero =>
    obtain rfl := List.eq_nil_of_length_eq_zero (Nat.le_zero.mp hm)
    rw [hnil, hnil]
  | succ m ih =>
    cases n with
    | zero =>
      obtain rfl := List.eq_nil_of_length_eq_zero (Nat.le_zero.mp hn)
      rw [hnil, hnil]
    | succ n =>
      rw [tokensIn, tokensIn]
      split
      · rfl
      · next t rest hnext =>
        have hlt := length_lt_of_next? hnext
        exact congrArg (t :: ·) (ih (by omega) (by omega))

theorem tokens_of_next? (h : next? cs = some (t, rest)) : tokens cs = t :: tokens rest := by
  have hlt := length_lt_of_next? h
  obtain ⟨steps, hsteps⟩ : ∃ n, cs.length = n + 1 := ⟨cs.length - 1, by omega⟩
  rw [tokens, hsteps, tokensIn, h]
  exact congrArg (t :: ·) (tokensIn_congr (by omega) (Nat.le_refl _))

theorem tokens_of_next?_eq_none (h : next? cs = none) : tokens cs = [] := by
  rw [tokens]
  cases cs.length with
  | zero => rfl
  | succ steps => rw [tokensIn, h]

/-- That there are no texts among the tokens of a text. -/
def HasNoText (cs : List Char) : Prop :=
  ∀ t ∈ tokens cs, t.isText = false

instance (cs : List Char) : Decidable (HasNoText cs) :=
  inferInstanceAs (Decidable (∀ t ∈ tokens cs, t.isText = false))

theorem HasNoText.nil : HasNoText [] :=
  List.forall_mem_nil _

theorem HasNoText.isText (h : HasNoText cs) (hnext : next? cs = some (t, rest)) :
    t.isText = false :=
  h t (by rw [tokens_of_next? hnext]; exact List.mem_cons_self)

theorem HasNoText.of_next? (h : HasNoText cs) (hnext : next? cs = some (t, rest)) :
    HasNoText rest :=
  fun t' ht' ↦ h t' (by rw [tokens_of_next? hnext]; exact List.mem_cons_of_mem _ ht')

end Tokens

/-! ### Balanced brackets -/

/-- Whether the brackets of a list of tokens are balanced behind as many left brackets as `depth`.
-/
def bracketsClose : (depth : Nat) → List Token → Bool
  | depth, [] => depth == 0
  | depth, t :: ts =>
    if t.isLeftBracket then bracketsClose (depth + 1) ts
    else if t.isRightBracket then depth != 0 && bracketsClose (depth - 1) ts
    else bracketsClose depth ts

/-- That a text has no texts within, and that its brackets are balanced behind as many left brackets
as `depth`. -/
structure Closes (depth : Nat) (cs : List Char) : Prop where
  noText : HasNoText cs
  close : bracketsClose depth (tokens cs) = true

namespace Closes

variable {k : Nat} {cs rest : List Char} {t : Token}

theorem nil : Closes 0 [] where
  noText := .nil
  close := rfl

theorem eq_zero (h : Closes k cs) (hnext : next? cs = none) : k = 0 := by
  have hclose := h.close
  rw [tokens_of_next?_eq_none hnext] at hclose
  exact beq_iff_eq.mp hclose

theorem left {input latex : List Char} (h : Closes k cs)
    (hnext : next? cs = some (.symbol ⟨input, .leftBracket latex⟩, rest)) :
    Closes (k + 1) rest where
  noText := h.noText.of_next? hnext
  close := by
    have hclose := h.close
    rwa [tokens_of_next? hnext] at hclose

theorem right {input latex : List Char} (h : Closes k cs)
    (hnext : next? cs = some (.symbol ⟨input, .rightBracket latex⟩, rest)) :
    0 < k ∧ Closes (k - 1) rest := by
  have hclose := h.close
  rw [tokens_of_next? hnext] at hclose
  obtain ⟨hpos, hclose'⟩ := Bool.and_eq_true_iff.mp hclose
  exact ⟨Nat.pos_of_ne_zero (bne_iff_ne.mp hpos), h.noText.of_next? hnext, hclose'⟩

theorem other (h : Closes k cs) (hnext : next? cs = some (t, rest))
    (hleft : t.isLeftBracket = false) (hright : t.isRightBracket = false) : Closes k rest where
  noText := h.noText.of_next? hnext
  close := by
    have hclose := h.close
    rw [tokens_of_next? hnext, bracketsClose, hleft, hright] at hclose
    exact hclose

end Closes

/-! ### Open groups -/

/-- How many groups of an expression have no closing bracket. -/
def unclosedGroups : Weights where
  atom _ := 0
  verbatim _ := 0
  unclosed := 1
  comma := rfl

/-- Whether a phrase is a part of a list outside of all groups, where a right bracket is an atom. -/
@[simp]
def Phrase.isOuter : Phrase → Bool
  | .entry inGroup _ | .list inGroup _ => !inGroup
  | _ => false

theorem isBracket_of_atom? {t : Token} {text : List Char} (h : t.atom? = some text) :
    t.isLeftBracket = false ∧ t.isRightBracket = false := by
  cases t with
  | symbol s =>
    obtain ⟨input, role⟩ := s
    cases role with
    | leftBracket | rightBracket => cases h
    | _ => exact ⟨rfl, rfl⟩
  | _ => exact ⟨rfl, rfl⟩

namespace Reads

variable {p : Phrase} {s s' : Reading}

/-- The counters never go back. -/
theorem tally_le (h : Reads p s s') :
    s.tally.taken ≤ s'.tally.taken ∧ s.tally.cuts ≤ s'.tally.cuts := by
  induction h with
  | cut => exact ⟨Nat.le_refl _, Nat.le_succ _⟩
  | bracket => exact ⟨Nat.le_succ _, Nat.le_refl _⟩
  | missing | atom | quoted | raw | noScript | stray | done | stop =>
    exact ⟨Nat.le_refl _, Nat.le_refl _⟩
  | nest _ _ ih | closed _ _ _ ih | unclosed _ _ _ ih | unary _ _ ih | textual _ _ _ ih
  | script _ _ _ ih | single _ _ ih | entry _ _ _ ih => exact ih
  | binary _ _ _ ih₁ ih₂ | fraction _ _ _ ih₁ ih₂ | more _ _ ih₁ ih₂ =>
    exact ⟨ih₁.1.trans ih₂.1, ih₁.2.trans ih₂.2⟩
  | scripts _ _ _ _ ih₁ ih₂ ih₃ | late _ _ _ _ ih₁ ih₂ ih₃ =>
    exact ⟨ih₁.1.trans (ih₂.1.trans ih₃.1), ih₁.2.trans (ih₂.2.trans ih₃.2)⟩

/-- A group is left open only at the end of the text. -/
theorem next?_eq_none_of_unclosed (h : Reads p s s') (hp : 0 < p.weight unclosedGroups) :
    next? s'.rest = none := by
  induction h with
  | cut | missing | atom | bracket | quoted | raw | noScript | stray | done | stop =>
    exact absurd hp (Nat.lt_irrefl 0)
  | nest _ _ ih | unary _ _ ih | textual _ _ _ ih | script _ _ _ ih | single _ _ ih
  | entry _ _ _ ih => exact ih hp
  | closed _ _ close ih =>
    rw [Phrase.weight, Expr.weight_ofGroup_some] at hp
    rw [ih hp] at close
    cases close
  | unclosed => rfl
  | binary _ _ second ih₁ ih₂ =>
    rcases Nat.add_pos_iff_pos_or_pos.mp hp with hp | hp
    · exact next?_eq_none_of_suffix (ih₁ hp) second.suffix
    · exact ih₂ hp
  | scripts _ sub sup _ ih₁ ih₂ ih₃ =>
    rw [Phrase.weight, weight_withScripts] at hp
    rcases Nat.add_pos_iff_pos_or_pos.mp hp with hp | hp
    · rcases Nat.add_pos_iff_pos_or_pos.mp hp with hp | hp
      · exact next?_eq_none_of_suffix (ih₁ hp) (sup.suffix.trans sub.suffix)
      · exact next?_eq_none_of_suffix (ih₂ hp) sup.suffix
    · exact ih₃ hp
  | late _ _ sup sub ih₁ ih₂ ih₃ =>
    rw [Phrase.weight, weight_withScripts] at hp
    rcases Nat.add_pos_iff_pos_or_pos.mp hp with hp | hp
    · rcases Nat.add_pos_iff_pos_or_pos.mp hp with hp | hp
      · exact next?_eq_none_of_suffix (ih₁ hp) (sub.suffix.trans sup.suffix)
      · exact ih₃ hp
    · exact next?_eq_none_of_suffix (ih₂ hp) sub.suffix
  | fraction _ next denominator ih₁ ih₂ =>
    rcases Nat.add_pos_iff_pos_or_pos.mp hp with hp | hp
    · exact next?_eq_none_of_suffix (ih₁ hp) (denominator.suffix.trans (suffix_of_next? next))
    · exact ih₂ hp
  | more _ tail ih₁ ih₂ =>
    rcases Nat.add_pos_iff_pos_or_pos.mp hp with hp | hp
    · exact next?_eq_none_of_suffix (ih₁ hp) tail.suffix
    · exact ih₂ hp

/-- **The account of the brackets.** Behind a phrase there are as many brackets to close as in front
of it and as it leaves open itself, but for those that it takes as operands. -/
theorem close_eq (h : Reads p s s') {k : Nat} (hclose : Closes k s.rest)
    (houter : p.isOuter = true → k = 0) (hcuts : s'.tally.cuts = 0) :
    ∃ k', Closes k' s'.rest ∧
      k' + s'.tally.taken = k + p.weight unclosedGroups + s.tally.taken := by
  induction h generalizing k with
  | cut => cases hcuts
  | missing | noScript | done | stop => exact ⟨k, hclose, rfl⟩
  | nest _ _ ih => exact ih hclose (by simp) hcuts
  | atom next atom =>
    obtain ⟨hleft, hright⟩ := isBracket_of_atom? atom
    exact ⟨k, hclose.other next hleft hright, rfl⟩
  | bracket next =>
    obtain ⟨hpos, hclose'⟩ := hclose.right next
    refine ⟨k - 1, hclose', ?_⟩
    simp only [Phrase.weight, Expr.weight, unclosedGroups]
    omega
  | quoted next | raw next | textual next =>
    have htext := hclose.noText.isText next
    cases htext
  | closed next _ close ih =>
    obtain ⟨k₁, hclose₁, heq⟩ := ih (hclose.left next) (by simp) hcuts
    obtain ⟨hpos, hclose₂⟩ := hclose₁.right close
    refine ⟨k₁ - 1, hclose₂, ?_⟩
    rw [Phrase.weight, Expr.weight_ofGroup_some]
    rw [Phrase.weight] at heq
    dsimp only at heq ⊢
    omega
  | unclosed next _ close ih =>
    obtain ⟨k₁, hclose₁, heq⟩ := ih (hclose.left next) (by simp) hcuts
    obtain rfl := hclose₁.eq_zero close
    refine ⟨0, .nil, ?_⟩
    rw [Phrase.weight, Expr.weight_ofGroup_none]
    rw [Phrase.weight] at heq
    dsimp only [unclosedGroups] at heq ⊢
    omega
  | unary next _ ih =>
    exact ih (hclose.other next rfl rfl) (by simp) hcuts
  | script sign next _ ih =>
    rcases sign with rfl | rfl
    · exact ih (hclose.other next rfl rfl) (by simp) hcuts
    · exact ih (hclose.other next rfl rfl) (by simp) hcuts
  | binary next _ second ih₁ ih₂ =>
    have hle := second.tally_le.2
    obtain ⟨k₁, hclose₁, heq₁⟩ :=
      ih₁ (hclose.other next rfl rfl) (by simp) (by omega)
    obtain ⟨k₂, hclose₂, heq₂⟩ := ih₂ hclose₁ (by simp) hcuts
    refine ⟨k₂, hclose₂, ?_⟩
    simp only [Phrase.weight, Expr.weight] at heq₁ heq₂ ⊢
    omega
  | scripts _ sub sup _ ih₁ ih₂ ih₃ | late _ _ sub sup ih₁ ih₂ ih₃ =>
    have hle₂ := sub.tally_le.2
    have hle₃ := sup.tally_le.2
    obtain ⟨k₁, hclose₁, heq₁⟩ := ih₁ hclose (by simp) (by omega)
    obtain ⟨k₂, hclose₂, heq₂⟩ := ih₂ hclose₁ (by simp) (by omega)
    obtain ⟨k₃, hclose₃, heq₃⟩ := ih₃ hclose₂ (by simp) hcuts
    refine ⟨k₃, hclose₃, ?_⟩
    simp only [Phrase.weight, weight_withScripts, scriptWeight] at heq₁ heq₂ heq₃ ⊢
    omega
  | single _ _ ih => exact ih hclose (by simp) hcuts
  | fraction _ next denominator ih₁ ih₂ =>
    have hle := denominator.tally_le.2
    obtain ⟨k₁, hclose₁, heq₁⟩ := ih₁ hclose (by simp) (by dsimp only at hle; omega)
    obtain ⟨k₂, hclose₂, heq₂⟩ :=
      ih₂ (hclose₁.other next rfl rfl) (by simp) hcuts
    refine ⟨k₂, hclose₂, ?_⟩
    simp only [Phrase.weight, Expr.weight] at heq₁ heq₂ ⊢
    omega
  | stray next =>
    obtain rfl := houter rfl
    exact absurd (hclose.right next).1 (Nat.lt_irrefl 0)
  | entry _ _ _ ih => exact ih hclose (by simp) hcuts
  | @more s s₁ s₂ inGroup e es head tail ih₁ ih₂ =>
    have hle := tail.tally_le.2
    have hmono := head.tally_le.1
    obtain ⟨k₁, hclose₁, heq₁⟩ := ih₁ hclose houter (by omega)
    -- outside of all groups nothing is open behind an expression, unless the text is at its end
    have houter₁ : (Phrase.list inGroup es).isOuter = true → k₁ = 0 := by
      intro hinGroup
      obtain rfl := houter hinGroup
      by_contra hk
      exact hk (hclose₁.eq_zero (head.next?_eq_none_of_unclosed (by omega)))
    obtain ⟨k₂, hclose₂, heq₂⟩ := ih₂ hclose₁ houter₁ hcuts
    refine ⟨k₂, hclose₂, ?_⟩
    simp only [Phrase.weight, listWeight] at heq₁ heq₂ ⊢
    omega

end Reads

/-! ### Operands that stand where they should -/

/-- How many operands are owed behind a token, if `owed` of them are in front of it. A script sign
or a slash takes one at most, but it may also be taken as an operand itself. -/
def Token.owes (owed : Nat) : Token → Nat
  | .symbol ⟨_, .unary _⟩ => owed - 1 + 1
  | .symbol ⟨_, .binary _⟩ => owed - 1 + 2
  | .symbol ⟨_, .sub⟩ | .symbol ⟨_, .sup⟩ | .symbol ⟨_, .divide⟩ => max owed 1
  | _ => owed - 1

/-- Whether no right bracket comes where operands are still owed: `owed` of them within the
brackets that the tokens start in, and those of `outside` around them. -/
def operandsStand : (outside : List Nat) → (owed : Nat) → List Token → Bool
  | _, _, [] => true
  | outside, owed, t :: ts =>
    if t.isLeftBracket then operandsStand ((owed - 1) :: outside) 0 ts
    else if t.isRightBracket then owed == 0 && operandsStand outside.tail (outside.headD 0) ts
    else operandsStand outside (t.owes owed) ts

theorem Token.owes_mono (t : Token) {m n : Nat} (h : m ≤ n) : t.owes m ≤ t.owes n := by
  unfold owes
  split <;> omega

/-- A token is one of the operands that are owed at most. -/
theorem Token.pred_le_owes (t : Token) (n : Nat) : n - 1 ≤ t.owes n := by
  unfold owes
  split <;> omega

/-- Fewer operands owed are never worse. -/
theorem operandsStand_mono {ts : List Token} {outside outside' : List Nat} {owed owed' : Nat}
    (h : operandsStand outside owed ts = true) (houtside : List.Forall₂ (· ≤ ·) outside' outside)
    (howed : owed' ≤ owed) : operandsStand outside' owed' ts = true := by
  induction ts generalizing outside outside' owed owed' with
  | nil => rfl
  | cons t ts ih =>
    rw [operandsStand] at h ⊢
    split
    · next hleft =>
      rw [if_pos hleft] at h
      exact ih h (.cons (Nat.sub_le_sub_right howed 1) houtside) (Nat.le_refl _)
    · next hleft =>
      rw [if_neg hleft] at h
      split
      · next hright =>
        rw [if_pos hright, Bool.and_eq_true, beq_iff_eq] at h
        obtain ⟨rfl, h⟩ := h
        obtain rfl := Nat.le_zero.mp howed
        refine Bool.and_eq_true_iff.mpr ⟨rfl, ?_⟩
        cases houtside with
        | nil => exact ih h .nil (Nat.le_refl _)
        | cons hhead htail => exact ih h htail hhead
      · next hright =>
        rw [if_neg hright] at h
        exact ih h houtside (t.owes_mono howed)

/-- That a text has no texts within, and that no right bracket comes where operands are owed. -/
structure Stands (outside : List Nat) (owed : Nat) (cs : List Char) : Prop where
  noText : HasNoText cs
  stand : operandsStand outside owed (tokens cs) = true

/-- That a text does not begin with a right bracket. -/
def StartsOperand (cs : List Char) : Prop :=
  ∀ t rest, next? cs = some (t, rest) → t.isRightBracket = false

namespace Stands

variable {outside : List Nat} {owed : Nat} {cs rest : List Char} {t : Token}

theorem nil : Stands outside owed [] where
  noText := .nil
  stand := rfl

theorem mono (h : Stands outside owed cs) {owed' : Nat} (howed : owed' ≤ owed) :
    Stands outside owed' cs where
  noText := h.noText
  stand := operandsStand_mono h.stand (List.forall₂_same.mpr fun _ _ ↦ Nat.le_refl _) howed

theorem of_none (h : Stands outside owed cs) (hnext : next? cs = none) (owed' : Nat) :
    Stands outside owed' cs where
  noText := h.noText
  stand := by
    rw [tokens_of_next?_eq_none hnext]
    rfl

theorem left {input latex : List Char} (h : Stands outside owed cs)
    (hnext : next? cs = some (.symbol ⟨input, .leftBracket latex⟩, rest)) :
    Stands ((owed - 1) :: outside) 0 rest where
  noText := h.noText.of_next? hnext
  stand := by
    have hstand := h.stand
    rwa [tokens_of_next? hnext] at hstand

theorem right {input latex : List Char} (h : Stands outside owed cs)
    (hnext : next? cs = some (.symbol ⟨input, .rightBracket latex⟩, rest)) :
    owed = 0 ∧ Stands outside.tail (outside.headD 0) rest := by
  have hstand := h.stand
  rw [tokens_of_next? hnext] at hstand
  obtain ⟨hzero, hstand'⟩ := Bool.and_eq_true_iff.mp hstand
  exact ⟨beq_iff_eq.mp hzero, h.noText.of_next? hnext, hstand'⟩

theorem other (h : Stands outside owed cs) (hnext : next? cs = some (t, rest))
    (hleft : t.isLeftBracket = false) (hright : t.isRightBracket = false) :
    Stands outside (t.owes owed) rest where
  noText := h.noText.of_next? hnext
  stand := by
    have hstand := h.stand
    rw [tokens_of_next? hnext, operandsStand, hleft, hright] at hstand
    exact hstand

/-- Where an operand is owed no right bracket stands. -/
theorem starts (h : Stands outside (owed + 1) cs) : StartsOperand cs := by
  intro t rest hnext
  by_contra hright
  obtain ⟨input, latex, rfl⟩ := Token.isRightBracket_iff.mp (Bool.not_eq_false _ ▸ hright)
  cases (h.right hnext).1

end Stands

/-- How many operands may be owed in front of a phrase, and that none of them is a right bracket.
Where a list stands outside of all groups, there are no brackets around it. -/
def Phrase.Fits (outside : List Nat) (owed : Nat) (cs : List Char) : Phrase → Prop
  | .simple _ | .token _ => StartsOperand cs
  | .script .. => owed = 0
  | .intermediate _ => owed ≤ 1 ∧ StartsOperand cs
  | .item _ => owed = 0 ∧ StartsOperand cs
  | .entry inGroup _ | .list inGroup _ => owed = 0 ∧ (inGroup = false → outside = [])

namespace Reads

variable {p : Phrase} {s s' : Reading}

/-- A phrase is one of the operands that are owed, and takes no right bracket. -/
theorem stands (h : Reads p s s') {outside : List Nat} {owed : Nat}
    (hstand : Stands outside owed s.rest) (hfits : p.Fits outside owed s.rest) :
    Stands outside (owed - 1) s'.rest ∧ s'.tally.taken = s.tally.taken := by
  induction h generalizing outside owed with
  | cut => exact ⟨.nil, rfl⟩
  | nest _ _ ih => exact ih hstand hfits
  | missing next => exact ⟨hstand.of_none next _, rfl⟩
  | @atom s t text rest next atom =>
    obtain ⟨hleft, hright⟩ := isBracket_of_atom? atom
    exact ⟨(hstand.other next hleft hright).mono (t.pred_le_owes owed), rfl⟩
  | bracket next =>
    have hright := hfits _ _ next
    cases hright
  | quoted next | raw next | textual next =>
    have htext := hstand.noText.isText next
    cases htext
  | closed next _ close ih =>
    obtain ⟨hinner, htaken⟩ := ih (hstand.left next) ⟨rfl, by simp⟩
    exact ⟨(hinner.right close).2, htaken⟩
  | unclosed next _ _ ih =>
    obtain ⟨-, htaken⟩ := ih (hstand.left next) ⟨rfl, by simp⟩
    exact ⟨.nil, htaken⟩
  | unary next _ ih =>
    have hrest : Stands outside (owed - 1 + 1) _ := hstand.other next rfl rfl
    have hargument := ih hrest hrest.starts
    exact hargument
  | binary next _ _ ih₁ ih₂ =>
    have hrest := hstand.other next rfl rfl
    obtain ⟨hstand₁, htaken₁⟩ := ih₁ hrest hrest.starts
    obtain ⟨hstand₂, htaken₂⟩ := ih₂ hstand₁ hstand₁.starts
    exact ⟨hstand₂, htaken₂.trans htaken₁⟩
  | noScript =>
    obtain rfl : owed = 0 := hfits
    exact ⟨hstand, rfl⟩
  | @script s s' role input rest e sign next _ ih =>
    obtain rfl : owed = 0 := hfits
    have hrest : Stands outside 1 rest := by
      rcases sign with rfl | rfl
      · exact hstand.other next rfl rfl
      · exact hstand.other next rfl rfl
    have hargument := ih hrest hrest.starts
    exact hargument
  | scripts _ _ _ _ ih₁ ih₂ ih₃ | late _ _ _ _ ih₁ ih₂ ih₃ =>
    obtain ⟨howed, hstarts⟩ := hfits
    obtain ⟨hstand₁, htaken₁⟩ := ih₁ hstand hstarts
    rw [Nat.sub_eq_zero_of_le howed] at hstand₁ ⊢
    obtain ⟨hstand₂, htaken₂⟩ := ih₂ hstand₁ rfl
    obtain ⟨hstand₃, htaken₃⟩ := ih₃ hstand₂ rfl
    exact ⟨hstand₃, htaken₃.trans (htaken₂.trans htaken₁)⟩
  | single _ _ ih =>
    obtain ⟨rfl, hstarts⟩ := hfits
    exact ih hstand ⟨Nat.zero_le 1, hstarts⟩
  | fraction _ next _ ih₁ ih₂ =>
    obtain ⟨rfl, hstarts⟩ := hfits
    obtain ⟨hstand₁, htaken₁⟩ := ih₁ hstand ⟨Nat.zero_le 1, hstarts⟩
    have hrest := hstand₁.other next rfl rfl
    obtain ⟨hstand₂, htaken₂⟩ := ih₂ hrest ⟨Nat.le_refl 1, hrest.starts⟩
    exact ⟨hstand₂, htaken₂.trans htaken₁⟩
  | stray next =>
    obtain ⟨rfl, houtside⟩ := hfits
    obtain rfl := houtside rfl
    exact ⟨(hstand.right next).2, rfl⟩
  | entry next bracket _ ih =>
    obtain ⟨rfl, -⟩ := hfits
    refine ih hstand ⟨rfl, fun t rest hnext ↦ ?_⟩
    rw [next] at hnext
    obtain ⟨rfl, rfl⟩ := Prod.mk.inj (Option.some.inj hnext)
    exact bracket
  | done | stop =>
    obtain ⟨rfl, -⟩ := hfits
    exact ⟨hstand, rfl⟩
  | more _ _ ih₁ ih₂ =>
    obtain ⟨rfl, houtside⟩ := hfits
    obtain ⟨hstand₁, htaken₁⟩ := ih₁ hstand ⟨rfl, houtside⟩
    obtain ⟨hstand₂, htaken₂⟩ := ih₂ hstand₁ ⟨rfl, houtside⟩
    exact ⟨hstand₂, htaken₂.trans htaken₁⟩

end Reads

/-! ### Texts that are not cut off -/

/-- How much deeper a phrase stands than the text around it. -/
def Phrase.lead : Phrase → Nat
  | .token _ => 1
  | _ => 0

/-- Each level of nesting takes a token, so that nothing is cut off in a short text. -/
theorem Reads.cuts_eq {p : Phrase} {s s' : Reading} (h : Reads p s s')
    (hshort : s.depth + s.rest.length < maxDepth + p.lead) : s'.tally.cuts = s.tally.cuts := by
  induction h with
  | cut deep =>
    simp only [Phrase.lead] at hshort
    omega
  | missing | atom | bracket | quoted | raw | noScript | stray | done | stop => rfl
  | nest _ _ ih =>
    refine ih ?_
    simp only [Phrase.lead] at hshort ⊢
    omega
  | closed next _ _ ih | unclosed next _ _ ih | unary next _ ih | textual next _ _ ih
  | script _ next _ ih =>
    have hlt := length_lt_of_next? next
    refine ih ?_
    simp only [Phrase.lead] at hshort ⊢
    omega
  | single _ _ ih | entry _ _ _ ih => exact ih hshort
  | binary next first _ ih₁ ih₂ =>
    have hlt := length_lt_of_next? next
    have hle := first.suffix.length_le
    have hdepth := first.depth_eq
    simp only [Phrase.lead] at hshort hle hdepth ih₁ ih₂
    exact (ih₂ (by omega)).trans (ih₁ (by omega))
  | fraction first next _ ih₁ ih₂ =>
    have hlt := length_lt_of_next? next
    have hle := first.suffix.length_le
    have hdepth := first.depth_eq
    simp only [Phrase.lead] at hshort ih₁ ih₂
    exact (ih₂ (by omega)).trans (ih₁ (by omega))
  | scripts first second _ _ ih₁ ih₂ ih₃ | late first _ second _ ih₁ ih₂ ih₃ =>
    have hle₁ := first.suffix.length_le
    have hdepth₁ := first.depth_eq
    have hle₂ := second.suffix.length_le
    have hdepth₂ := second.depth_eq
    simp only [Phrase.lead] at hshort ih₁ ih₂ ih₃
    exact (ih₃ (by omega)).trans ((ih₂ (by omega)).trans (ih₁ (by omega)))
  | more first _ ih₁ ih₂ =>
    have hle := first.suffix.length_le
    have hdepth := first.depth_eq
    simp only [Phrase.lead] at hshort ih₁ ih₂
    exact (ih₂ (by omega)).trans (ih₁ (by omega))

/-- **As many groups are left open as right brackets are taken as operands**, in every text whose
brackets are balanced and that has no texts within and is not nested too deep. If every operand
stands in front of the right bracket behind it, no bracket is taken, and every group is closed. -/
theorem taken_eq_unclosed (text : List Char) (htext : HasNoText text)
    (hbalanced : bracketsClose 0 (tokens text) = true) :
    (∃ s, Reads (.list false (parse text)) (.start text) s) ∧
    ∀ es s, Reads (.list false es) (.start text) s → s.tally.cuts = 0 →
      es = parse text ∧ s.tally.taken = listWeight unclosedGroups es ∧
      (operandsStand [] 0 (tokens text) = true →
        s.tally.taken = 0 ∧ listWeight unclosedGroups es = 0) := by
  refine ⟨reads_parse text, fun es s hread hcuts ↦ ?_⟩
  have hclose : Closes 0 (Reading.start text).rest := ⟨htext, hbalanced⟩
  obtain ⟨k, hclose', heq⟩ := hread.close_eq hclose (fun _ ↦ rfl) hcuts
  obtain rfl := hclose'.eq_zero hread.next?_eq_none
  have htaken : s.tally.taken = listWeight unclosedGroups es := by
    simpa [Phrase.weight, Reading.start] using heq
  refine ⟨hread.parse_eq.symm, htaken, fun hstand ↦ ?_⟩
  have hstands : Stands [] 0 (Reading.start text).rest := ⟨htext, hstand⟩
  have hzero : s.tally.taken = 0 := (hread.stands hstands ⟨rfl, fun _ ↦ rfl⟩).2
  exact ⟨hzero, htaken ▸ hzero⟩

/-- A script, a slash and commands, with all their operands. -/
theorem taken_eq_unclosed_of_operands :
    ∃ s, Reads (.list false (parse "[a_2/sqrt(frac x y)]".toList))
        (.start "[a_2/sqrt(frac x y)]".toList) s ∧ s.tally.cuts = 0 ∧ s.tally.taken = 0 ∧
      listWeight unclosedGroups (parse "[a_2/sqrt(frac x y)]".toList) = 0 := by
  obtain ⟨htext, hbalanced, hstand⟩ : HasNoText "[a_2/sqrt(frac x y)]".toList ∧
      bracketsClose 0 (tokens "[a_2/sqrt(frac x y)]".toList) = true ∧
      operandsStand [] 0 (tokens "[a_2/sqrt(frac x y)]".toList) = true := by
    decide +kernel
  obtain ⟨⟨s, hread⟩, hall⟩ := taken_eq_unclosed _ htext hbalanced
  have hcuts : s.tally.cuts = 0 := hread.cuts_eq (by decide)
  exact ⟨s, hread, hcuts, (hall _ s hread hcuts).2.2 hstand⟩

/-- A right bracket behind a script sign is taken as the script, and its group is left open. -/
theorem unclosed_of_missing_operand :
    ¬ ∀ text es s, HasNoText text → bracketsClose 0 (tokens text) = true →
      Reads (.list false es) (.start text) s → s.tally.cuts = 0 →
      listWeight unclosedGroups es = 0 ∧ s.tally.taken = 0 := by
  intro h
  obtain ⟨htext, hbalanced, hopen⟩ : HasNoText "(x^)".toList ∧
      bracketsClose 0 (tokens "(x^)".toList) = true ∧
      listWeight unclosedGroups (parse "(x^)".toList) = 1 := by
    decide +kernel
  obtain ⟨s, hread⟩ := reads_parse "(x^)".toList
  have hcuts : s.tally.cuts = 0 := hread.cuts_eq (by decide)
  obtain ⟨hclosed, -⟩ := h _ _ s htext hbalanced hread hcuts
  rw [hopen] at hclosed
  cases hclosed

end DocumentMath.AsciiMath
