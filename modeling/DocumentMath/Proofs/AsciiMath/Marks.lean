import DocumentMath.AsciiMath.Latex
import Mathlib.Data.List.TakeWhile

/-!
# Brackets in LaTeX

LaTeX groups with braces and with the sizing commands `\left` and `\right`. `marks` reads off a text
which of these come in which order; a backslash is read together with what it escapes or names, so
that an escaped brace is no mark. `IsNested` says that the marks are balanced and that the two kinds
of pairs do not overlap.

The marks of a text are not simply those of its parts: a part may end in the middle of a control
word. `marks_append` has the two cases in which they are, and `IsPiece` is what the writer of LaTeX
relies on. `push` keeps it, since it puts a blank between a control word and a letter.
-/

namespace DocumentMath.AsciiMath

/-! ### Marks -/

/-- The two ways in which LaTeX groups. -/
inductive Grouping where
  | brace
  | sized
  deriving DecidableEq, Repr

/-- A place in LaTeX where something is grouped from or up to. -/
inductive Mark where
  | opening (g : Grouping)
  | closing (g : Grouping)
  deriving DecidableEq, Repr

/-- The mark that a control word is. -/
def wordMark? (word : List Char) : Option Mark :=
  if word = "left".toList then some (.opening .sized)
  else if word = "right".toList then some (.closing .sized)
  else none

/-- The mark that a character is when no backslash stands in front of it. -/
def charMark? (c : Char) : Option Mark :=
  if c = '\x7b' then some (.opening .brace)
  else if c = '\x7d' then some (.closing .brace)
  else none

/-- The marks of a text in LaTeX, from left to right. A backslash names the control word of all
letters behind it, or else escapes the character behind it. The letters of a control word are no
marks by themselves, so that the reading goes on behind the first of them. -/
def marks : List Char → List Mark
  | [] => []
  | '\\' :: c :: cs => (wordMark? ((c :: cs).takeWhile isLetter)).toList ++ marks cs
  | c :: cs => (charMark? c).toList ++ marks cs

/-- Every mark has its partner, and what stands between the two is nested in the same way. -/
inductive IsNested : List Mark → Prop
  | nil : IsNested []
  | pair (g : Grouping) {inner rest : List Mark} (hinner : IsNested inner)
      (hrest : IsNested rest) : IsNested (.opening g :: (inner ++ .closing g :: rest))

namespace IsNested

variable {ms ns : List Mark}

theorem append (hms : IsNested ms) (hns : IsNested ns) : IsNested (ms ++ ns) := by
  induction hms with
  | nil => exact hns
  | pair g hinner hrest _ ih =>
    rw [List.cons_append, List.append_assoc, List.cons_append]
    exact .pair g hinner ih

theorem around (g : Grouping) (h : IsNested ms) : IsNested (.opening g :: (ms ++ [.closing g])) :=
  .pair g h .nil

end IsNested

/-! ### Marks of parts -/

theorem marks_escape (c : Char) (cs : List Char) :
    marks ('\\' :: c :: cs)
      = (wordMark? ((c :: cs).takeWhile isLetter)).toList ++ marks cs := rfl

theorem marks_cons {c : Char} (h : c ≠ '\\') (cs : List Char) :
    marks (c :: cs) = (charMark? c).toList ++ marks cs := by
  rw [marks]
  rintro d ds rfl
  exact absurd rfl h

theorem marks_append_of_plain {cs : List Char}
    (h : ∀ c ∈ cs, c ≠ '\\' ∧ charMark? c = none) (b : List Char) : marks (cs ++ b) = marks b := by
  induction cs with
  | nil => rfl
  | cons c cs ih =>
    rw [List.forall_mem_cons] at h
    rw [List.cons_append, marks_cons h.1.1, h.1.2, ih h.2]
    rfl

/-- What stands behind a text does not change the control word at its end, if it does not begin with
a letter, or if the text does not end with one. -/
theorem takeWhile_isLetter_append {cs b : List Char}
    (h : (∀ c ∈ b.head?, isLetter c = false) ∨ ∃ c ∈ cs.getLast?, isLetter c = false) :
    (cs ++ b).takeWhile isLetter = cs.takeWhile isLetter := by
  rw [List.takeWhile_append]
  split
  · next hall =>
    rcases h with hb | ⟨c, hc, hletter⟩
    · have hnone : b.takeWhile isLetter = [] := by
        cases b with
        | nil => rfl
        | cons c b => exact List.takeWhile_cons_of_neg (by simp [hb c rfl])
      rw [hnone, List.append_nil]
      exact ((List.takeWhile_prefix isLetter).eq_of_length hall).symm
    · -- all characters would be letters
      have heq := (List.takeWhile_prefix isLetter).eq_of_length hall
      have hmem : c ∈ cs.takeWhile isLetter := by
        rw [heq]
        exact List.mem_of_getLast? hc
      rw [List.mem_takeWhile_imp hmem] at hletter
      cases hletter
  · rfl

/-- The marks of a text are those of its parts, if no backslash stands at the end of the first part
and no control word goes on from there. -/
theorem marks_append {cs b : List Char} (hlast : cs.getLast? ≠ some '\\')
    (h : (∀ c ∈ b.head?, isLetter c = false) ∨ ∃ c ∈ cs.getLast?, isLetter c = false) :
    marks (cs ++ b) = marks cs ++ marks b := by
  fun_induction marks cs with
  | case1 => rfl
  | case2 c cs ih =>
    rw [List.cons_append, List.cons_append, marks_escape, ← List.cons_append]
    have hcons : ('\\' :: c :: cs).getLast? = (c :: cs).getLast? := rfl
    rw [hcons] at hlast h
    rw [takeWhile_isLetter_append h]
    cases cs with
    | nil => rw [List.nil_append, marks, List.append_nil]
    | cons d cs => rw [ih hlast h, List.append_assoc]
  | case3 c cs hescape ih =>
    cases cs with
    | nil =>
      have hc : c ≠ '\\' := fun heq ↦ hlast (by rw [heq]; rfl)
      rw [List.singleton_append, marks_cons hc, marks, List.append_nil]
    | cons d cs =>
      have hc : c ≠ '\\' := fun heq ↦ hescape d cs heq rfl
      have hcons : (c :: d :: cs).getLast? = (d :: cs).getLast? := rfl
      rw [hcons] at hlast h
      rw [List.cons_append, marks_cons hc, ih hlast h, List.append_assoc]

/-! ### Pieces -/

/-- A text ends with a control word if letters stand at its end behind a backslash that is not
escaped. -/
theorem endsWithControlWord_iff {cs : List Char} :
    endsWithControlWord cs = true ↔ ∃ before word, cs = before ++ '\\' :: word ∧ word ≠ [] ∧
      (∀ c ∈ word, isLetter c = true) ∧ before.getLast? ≠ some '\\' := by
  constructor
  · intro h
    have hreverse : cs = (cs.reverse.dropWhile isLetter).reverse
        ++ (cs.reverse.takeWhile isLetter).reverse := by
      rw [← List.reverse_append, List.takeWhile_append_dropWhile, List.reverse_reverse]
    rw [endsWithControlWord] at h
    split at h
    · cases h
    · cases h
    · next rest hescaped hdrop hword =>
      refine ⟨rest.reverse, (cs.reverse.takeWhile isLetter).reverse, ?_, ?_, ?_, ?_⟩
      · rw [hdrop, List.reverse_cons, List.append_assoc] at hreverse
        exact hreverse
      · exact fun hnil ↦ hword (List.reverse_eq_nil_iff.mp hnil)
      · exact fun c hc ↦ List.mem_takeWhile_imp (List.mem_reverse.mp hc)
      · intro hlast
        rw [List.getLast?_reverse] at hlast
        obtain ⟨ds, rfl⟩ := List.head?_eq_some_iff.mp hlast
        exact hescaped ds rfl
    · cases h
  · rintro ⟨before, word, rfl, hword, hletters, hbefore⟩
    have hreverse : (before ++ '\\' :: word).reverse = word.reverse ++ '\\' :: before.reverse := by
      rw [List.reverse_append, List.reverse_cons, List.append_assoc]
      rfl
    have hletters' : ∀ c ∈ word.reverse, isLetter c = true := fun c hc ↦
      hletters c (List.mem_reverse.mp hc)
    have hslash : isLetter '\\' = false := by decide
    have htake : (before ++ '\\' :: word).reverse.takeWhile isLetter = word.reverse := by
      rw [hreverse, List.takeWhile_append_of_pos hletters',
        List.takeWhile_cons_of_neg (by rw [hslash]; exact Bool.false_ne_true), List.append_nil]
    have hdrop : (before ++ '\\' :: word).reverse.dropWhile isLetter = '\\' :: before.reverse := by
      rw [hreverse, List.dropWhile_append_of_pos hletters',
        List.dropWhile_cons_of_neg (by rw [hslash]; exact Bool.false_ne_true)]
    rw [endsWithControlWord, htake, hdrop]
    split
    · next hnil => exact absurd (List.reverse_eq_nil_iff.mp hnil) hword
    · next ds hds _ =>
      refine absurd ?_ hbefore
      rw [← List.head?_reverse, (List.cons.inj hds).2]
      rfl
    · rfl
    · next hno => exact absurd rfl (hno _)

/-- A control word at the end of a part is one at the end of the whole. -/
theorem endsWithControlWord_append {cs piece : List Char} (hcs : cs.getLast? ≠ some '\\')
    (h : endsWithControlWord piece = true) : endsWithControlWord (cs ++ piece) = true := by
  obtain ⟨before, word, rfl, hword, hletters, hbefore⟩ := endsWithControlWord_iff.mp h
  refine endsWithControlWord_iff.mpr
    ⟨cs ++ before, word, (List.append_assoc _ _ _).symm, hword, hletters, ?_⟩
  rw [List.getLast?_append]
  cases hlast : before.getLast? with
  | none => exact hcs
  | some c =>
    rw [hlast] at hbefore
    exact hbefore

/-- A text that can be followed by others: no backslash stands at its end, and where it does not end
with a control word, its marks are not changed by what follows. -/
structure IsPiece (cs : List Char) : Prop where
  last : cs.getLast? ≠ some '\\'
  closed : endsWithControlWord cs = false → ∀ b, marks (cs ++ b) = marks cs ++ marks b

namespace IsPiece

variable {cs piece : List Char}

theorem nil : IsPiece [] where
  last := by simp
  closed _ _ := rfl

/-- A text that does not end with a letter ends with no control word. -/
theorem of_last {c : Char} (hlast : cs.getLast? = some c) (hc : c ≠ '\\')
    (hletter : isLetter c = false) : IsPiece cs := by
  have hne : cs.getLast? ≠ some '\\' := fun heq ↦ hc (Option.some.inj (hlast.symm.trans heq))
  exact ⟨hne, fun _ b ↦ marks_append hne (Or.inr ⟨c, hlast, hletter⟩)⟩

/-- A text without backslashes and braces has no marks. -/
theorem of_plain (h : ∀ c ∈ cs, c ≠ '\\' ∧ charMark? c = none) : IsPiece cs ∧ marks cs = [] := by
  have hmarks : marks cs = [] := by
    have happend := marks_append_of_plain h []
    rwa [List.append_nil] at happend
  refine ⟨⟨fun hlast ↦ (h _ (List.mem_of_getLast? hlast)).1 rfl, fun _ b ↦ ?_⟩, hmarks⟩
  rw [marks_append_of_plain h, hmarks, List.nil_append]

/-- What does not begin with a letter can follow any piece. -/
theorem marks_append (h : IsPiece cs) {b : List Char} (hb : ∀ c ∈ b.head?, isLetter c = false) :
    marks (cs ++ b) = marks cs ++ marks b :=
  AsciiMath.marks_append h.last (Or.inl hb)

theorem last_append (hcs : IsPiece cs) (hpiece : IsPiece piece) :
    (cs ++ piece).getLast? ≠ some '\\' := by
  rw [List.getLast?_append]
  have hpieceLast := hpiece.last
  cases hlast : piece.getLast? with
  | none => exact hcs.last
  | some c =>
    rw [hlast] at hpieceLast
    exact hpieceLast

/-- Two pieces are put together, if the marks of the first are not changed by what follows. -/
theorem append (hcs : IsPiece cs) (hpiece : IsPiece piece)
    (h : ∀ b, marks (cs ++ (piece ++ b)) = marks cs ++ marks (piece ++ b)) :
    IsPiece (cs ++ piece) ∧ marks (cs ++ piece) = marks cs ++ marks piece := by
  have hmarks : marks (cs ++ piece) = marks cs ++ marks piece := by
    have hnil := h []
    rwa [List.append_nil] at hnil
  refine ⟨⟨hcs.last_append hpiece, fun hends b ↦ ?_⟩, hmarks⟩
  have hends' : endsWithControlWord piece = false := by
    rw [← Bool.not_eq_true] at hends ⊢
    exact mt (endsWithControlWord_append hcs.last) hends
  rw [List.append_assoc, h, hpiece.closed hends', hmarks, List.append_assoc]

/-- Pieces that are pushed one onto the other are kept apart, so that their marks are put
together. -/
theorem push (hcs : IsPiece cs) (hpiece : IsPiece piece) :
    IsPiece (push cs piece) ∧ marks (AsciiMath.push cs piece) = marks cs ++ marks piece := by
  unfold AsciiMath.push
  split
  · exact ⟨hcs, (List.append_nil _).symm⟩
  · next c rest =>
    split
    · -- a blank is put between the two
      have hspace : ∀ d ∈ [' '], d ≠ '\\' ∧ charMark? d = none :=
        List.forall_mem_singleton.mpr (by decide)
      have hblank : IsPiece (' ' :: c :: rest) ∧ marks (' ' :: c :: rest) = marks (c :: rest) :=
        (of_plain hspace).1.append hpiece fun b ↦ marks_append_of_plain hspace _
      rw [← hblank.2]
      exact hcs.append hblank.1 fun b ↦ hcs.marks_append fun d hd ↦ by cases hd; decide
    · next hc =>
      refine hcs.append hpiece fun b ↦ ?_
      rw [Bool.and_eq_true, not_and_or, Bool.not_eq_true, Bool.not_eq_true] at hc
      rcases hc with hletter | hends
      · refine hcs.marks_append fun d hd ↦ ?_
        cases hd
        exact hletter
      · exact hcs.closed hends _

end IsPiece

end DocumentMath.AsciiMath
