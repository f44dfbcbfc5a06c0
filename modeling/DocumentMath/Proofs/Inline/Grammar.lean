import DocumentMath.Inline.Written
import Mathlib.Data.List.TakeWhile

/-!
# The grammar of inline equations

An inline equation is a name, a colon, a possibly empty run of the letters `a` to `z` and commas, an
opening bracket, a payload and a closing bracket, with or without a backslash in front. The payload
is not empty and does not end in a backslash. `Written.IsValid` says which parts may stand together;
the text they make is `Written.source`.

`writtenAt?` decides this grammar at the start of a text. It is sound (`writtenAt?_isValid`), it is
complete, and of the payloads that would do it takes the shortest (`writtenAt?_complete`). Only the
payload is left to choose: name, substitutions and backslash are fixed by the text. Hence what
`writtenAt?` reads does not depend on what follows (`writtenAt?_source_append`).

A text is cut at the first occurrence that is read in it, if there is one (`pieces_cases`).
-/

namespace DocumentMath.Inline

/-- A payload that a bracket can close: it has a last character, which is not a backslash. -/
def IsPayload (p : List Char) : Prop :=
  ∃ c, p.getLast? = some c ∧ c ≠ '\\'

/-- The parts of an inline equation are as the grammar has them. -/
structure Written.IsValid (w : Written) : Prop where
  /-- The substitutions are written in small letters and commas. -/
  subs : ∀ c ∈ w.subs, c = ',' ∨ 'a' ≤ c ∧ c ≤ 'z'
  /-- A bracket can close the payload. -/
  payload : IsPayload w.payload

@[simp] theorem isPayload_cons_cons {c d : Char} {p : List Char} :
    IsPayload (c :: d :: p) ↔ IsPayload (d :: p) := by
  simp [IsPayload, List.getLast?_cons_cons]

@[simp] theorem isPayload_singleton {c : Char} : IsPayload [c] ↔ c ≠ '\\' := by
  simp [IsPayload]

theorem IsPayload.ne_nil {p : List Char} (h : IsPayload p) : p ≠ [] := by
  rintro rfl
  obtain ⟨c, hc, -⟩ := h
  cases hc

theorem isSubsChar_iff {c : Char} : isSubsChar c = true ↔ c = ',' ∨ 'a' ≤ c ∧ c ≤ 'z' := by
  simp [isSubsChar, or_comm]

/-! ### Payloads -/

theorem isPayload_of_payloadAfter? {last : Char} {cs p : List Char}
    (h : payloadAfter? last cs = some p) : IsPayload (last :: p) := by
  induction cs generalizing last p with
  | nil => cases h
  | cons c cs ih =>
    simp only [payloadAfter?] at h
    split at h
    · next hc =>
      cases h
      exact isPayload_singleton.mpr hc.2
    · obtain ⟨q, hq, rfl⟩ := Option.map_eq_some_iff.mp h
      exact isPayload_cons_cons.mpr (ih hq)

/-- A payload is read whenever there is one, and the one that is read is no longer. -/
theorem payloadAfter?_complete {last : Char} {cs q : List Char} (h : q ++ [']'] <+: cs)
    (hq : IsPayload (last :: q)) :
    ∃ p, payloadAfter? last cs = some p ∧ p.length ≤ q.length := by
  induction cs generalizing last q with
  | nil => simp at h
  | cons c cs ih =>
    simp only [payloadAfter?]
    split
    · exact ⟨[], rfl, Nat.zero_le _⟩
    · next hc =>
      cases q with
      | nil =>
        -- the bracket is here, and what stands in front of it does not keep it from closing
        rw [List.nil_append, List.cons_prefix_cons] at h
        exact absurd ⟨h.1.symm, isPayload_singleton.mp hq⟩ hc
      | cons d q =>
        rw [List.cons_append, List.cons_prefix_cons] at h
        obtain ⟨rfl, h⟩ := h
        obtain ⟨p, hp, hle⟩ := ih h (isPayload_cons_cons.mp hq)
        exact ⟨d :: p, by rw [hp, Option.map_some], Nat.succ_le_succ hle⟩

theorem isPayload_of_payloadAt? {cs p : List Char} (h : payloadAt? cs = some p) :
    IsPayload p := by
  cases cs with
  | nil => cases h
  | cons c cs =>
    obtain ⟨q, hq, rfl⟩ := Option.map_eq_some_iff.mp h
    exact isPayload_of_payloadAfter? hq

theorem payloadAt?_complete {cs q : List Char} (h : q ++ [']'] <+: cs) (hq : IsPayload q) :
    ∃ p, payloadAt? cs = some p ∧ p.length ≤ q.length := by
  obtain ⟨c, q, rfl⟩ := List.exists_cons_of_ne_nil hq.ne_nil
  obtain ⟨rest, rfl⟩ := h
  obtain ⟨p, hp, hle⟩ := payloadAfter?_complete (List.prefix_append (q ++ [']']) rest) hq
  refine ⟨c :: p, ?_, Nat.succ_le_succ hle⟩
  simp only [List.cons_append, payloadAt?]
  rw [hp, Option.map_some]

/-! ### Substitutions and names -/

theorem isValid_of_argumentsAt? {name : MacroName} {cs : List Char} {w : Written}
    (h : argumentsAt? name cs = some w) : w.IsValid := by
  simp only [argumentsAt?] at h
  split at h
  · obtain ⟨p, hp, rfl⟩ := Option.map_eq_some_iff.mp h
    exact ⟨fun c hc ↦ isSubsChar_iff.mp (List.mem_takeWhile_imp hc), isPayload_of_payloadAt? hp⟩
  · cases h

theorem argumentsAt?_complete {name : MacroName} {cs subs q : List Char}
    (hsubs : ∀ c ∈ subs, c = ',' ∨ 'a' ≤ c ∧ c ≤ 'z') (hq : IsPayload q)
    (h : subs ++ '[' :: (q ++ [']']) <+: cs) :
    ∃ p, argumentsAt? name cs = some ⟨false, name, subs, p⟩ ∧ p.length ≤ q.length := by
  obtain ⟨rest, rfl⟩ := h
  obtain ⟨p, hp, hle⟩ := payloadAt?_complete (List.prefix_append (q ++ [']']) rest) hq
  have hall : ∀ c ∈ subs, isSubsChar c = true := fun c hc ↦ isSubsChar_iff.mpr (hsubs c hc)
  have hopen : isSubsChar '[' = false := by decide
  have hdrop : (subs ++ '[' :: (q ++ [']']) ++ rest).dropWhile isSubsChar
      = '[' :: (q ++ [']'] ++ rest) := by
    rw [List.append_assoc, List.dropWhile_append_of_pos hall, List.cons_append,
      List.dropWhile_cons_of_neg (by simp [hopen])]
  have htake : (subs ++ '[' :: (q ++ [']']) ++ rest).takeWhile isSubsChar = subs := by
    rw [List.append_assoc, List.takeWhile_append_of_pos hall, List.cons_append,
      List.takeWhile_cons_of_neg (by simp [hopen]), List.append_nil]
  refine ⟨p, ?_, hle⟩
  rw [argumentsAt?, hdrop, htake]
  simp only [hp, Option.map_some]

theorem isValid_of_plainAt? {cs : List Char} {w : Written} (h : plainAt? cs = some w) :
    w.IsValid := by
  obtain ⟨name, -, hname⟩ := List.exists_of_findSome?_eq_some h
  obtain ⟨rest, -, hw⟩ := Option.bind_eq_some_iff.mp hname
  exact isValid_of_argumentsAt? hw

@[simp] theorem chars_stem : MacroName.stem.chars = ['s', 't', 'e', 'm'] := rfl

@[simp] theorem chars_latexmath :
    MacroName.latexmath.chars = ['l', 'a', 't', 'e', 'x', 'm', 'a', 't', 'h'] := rfl

@[simp] theorem chars_asciimath :
    MacroName.asciimath.chars = ['a', 's', 'c', 'i', 'i', 'm', 'a', 't', 'h'] := rfl

/-- Behind one of the names and a colon no other name counts. -/
theorem plainAt?_name_append (name : MacroName) (cs : List Char) :
    plainAt? (name.chars ++ ':' :: cs) = argumentsAt? name cs := by
  cases hargs : argumentsAt? name cs <;> cases name <;>
    simp [plainAt?, MacroName.all, Text.after?, hargs]

theorem plainAt?_complete {cs : List Char} {w : Written} (hw : w.IsValid) (h : w.body <+: cs) :
    ∃ p, plainAt? cs = some ⟨false, w.name, w.subs, p⟩ ∧ p.length ≤ w.payload.length := by
  obtain ⟨rest, rfl⟩ := h
  obtain ⟨p, hp, hle⟩ := @argumentsAt?_complete w.name _ w.subs w.payload hw.subs hw.payload
    (List.prefix_append _ rest)
  refine ⟨p, ?_, hle⟩
  rw [Written.body, List.append_assoc, List.cons_append, plainAt?_name_append, hp]

/-! ### Whole occurrences -/

/-- No name starts with a backslash. -/
theorem head_body_ne (w : Written) (rest cs : List Char) : w.body ++ rest ≠ '\\' :: cs := by
  cases hn : w.name <;> simp [Written.body, hn]

theorem writtenAt?_of_head_ne {cs : List Char} (h : ∀ rest, cs ≠ '\\' :: rest) :
    writtenAt? cs = plainAt? cs := by
  unfold writtenAt?
  split
  · next rest => exact absurd rfl (h rest)
  · rfl

/-- Only what the grammar allows is read. -/
theorem writtenAt?_isValid {cs : List Char} {w : Written} (h : writtenAt? cs = some w) :
    w.IsValid := by
  unfold writtenAt? at h
  split at h
  · obtain ⟨v, hv, rfl⟩ := Option.map_eq_some_iff.mp h
    exact ⟨(isValid_of_plainAt? hv).subs, (isValid_of_plainAt? hv).payload⟩
  · exact isValid_of_plainAt? h

/-- Whatever the grammar allows at the start of a text is read there, up to the payload, of which
the shortest is taken. -/
theorem writtenAt?_complete {cs : List Char} {w : Written} (hw : w.IsValid)
    (h : w.source <+: cs) :
    ∃ p, writtenAt? cs = some { w with payload := p } ∧ p.length ≤ w.payload.length := by
  obtain ⟨rest, rfl⟩ := h
  obtain ⟨p, hp, hle⟩ := plainAt?_complete hw (List.prefix_append w.body rest)
  refine ⟨p, ?_, hle⟩
  cases hesc : w.escaped with
  | false =>
    have hsource : w.source = w.body := by simp [Written.source, hesc]
    rw [hsource, writtenAt?_of_head_ne (head_body_ne w rest), hp]
  | true =>
    have hsource : w.source = '\\' :: w.body := by simp [Written.source, hesc]
    rw [hsource, List.cons_append]
    simp only [writtenAt?, hp, Option.map_some]

theorem writtenAt?_eq_none_iff {cs : List Char} :
    writtenAt? cs = none ↔ ∀ w : Written, w.IsValid → ¬ w.source <+: cs := by
  constructor
  · intro h w hw hcs
    obtain ⟨p, hp, -⟩ := writtenAt?_complete hw hcs
    rw [h] at hp
    cases hp
  · intro h
    cases hcs : writtenAt? cs with
    | none => rfl
    | some w =>
      obtain ⟨rest, rfl⟩ := writtenAt?_eq hcs
      exact absurd ⟨rest, rfl⟩ (h w (writtenAt?_isValid hcs))

/-- Two sources of the same parts but for the payload, at the start of one text, are the same when
the payloads are equally long. -/
theorem payload_eq_of_source_prefix {cs p q : List Char} {w : Written}
    (hp : ({ w with payload := p } : Written).source <+: cs)
    (hq : ({ w with payload := q } : Written).source <+: cs) (h : p.length = q.length) :
    p = q := by
  have hlen : ({ w with payload := p } : Written).source.length
      = ({ w with payload := q } : Written).source.length := by
    cases w.escaped <;> simp [Written.source, Written.body, h]
  have hle := Nat.le_of_eq hlen
  have heq := List.IsPrefix.eq_of_length (List.prefix_of_prefix_length_le hp hq hle) hlen
  cases hesc : w.escaped <;> simp [Written.source, Written.body, hesc] at heq <;> exact heq

/-- What is read at the start of a text does not depend on what follows it. -/
theorem writtenAt?_source_append {cs : List Char} {w : Written} (h : writtenAt? cs = some w)
    (rest : List Char) : writtenAt? (w.source ++ rest) = some w := by
  have hw := writtenAt?_isValid h
  obtain ⟨tail, rfl⟩ := writtenAt?_eq h
  obtain ⟨p, hp, hle⟩ := writtenAt?_complete hw (List.prefix_append w.source rest)
  have hvalid := writtenAt?_isValid hp
  have hpre : ({ w with payload := p } : Written).source <+: w.source := by
    obtain ⟨rest', hrest⟩ := writtenAt?_eq hp
    refine List.prefix_of_prefix_length_le ⟨rest', hrest.symm⟩ ⟨rest, rfl⟩ ?_
    cases hesc : w.escaped <;> simp [Written.source, Written.body, hesc] <;> omega
  -- what is read in front of `rest` could have been read in the first text as well
  obtain ⟨q, hq, hqle⟩ := writtenAt?_complete (w := { w with payload := p }) hvalid
    (hpre.trans ⟨tail, rfl⟩)
  rw [h] at hq
  have hqw : q = w.payload := by
    have := congrArg (Option.map Written.payload) hq
    simpa using this.symm
  have hlen : p.length = w.payload.length := by
    rw [hqw] at hqle
    exact Nat.le_antisymm hle hqle
  have : p = w.payload := payload_eq_of_source_prefix (w := w) hpre List.prefix_rfl hlen
  rw [hp, this]

/-! ### The first occurrence -/

/-- No occurrence starts anywhere in a text. -/
def IsFree (cs : List Char) : Prop :=
  ∀ pre post, cs = pre ++ post → writtenAt? post = none

/-- The first occurrence that is read in a text, with what stands in front of it and the rest. -/
structure IsCut (cs gap : List Char) (w : Written) (rest : List Char) : Prop where
  text : cs = gap ++ w.source ++ rest
  read : writtenAt? (w.source ++ rest) = some w
  free : ∀ pre post, pre.length < gap.length → cs = pre ++ post → writtenAt? post = none

theorem isFree_nil : IsFree [] := by
  intro pre post h
  rw [(List.append_eq_nil_iff.mp h.symm).2]
  rfl

theorem isFree_cons {c : Char} {cs : List Char} :
    IsFree (c :: cs) ↔ writtenAt? (c :: cs) = none ∧ IsFree cs := by
  constructor
  · intro h
    exact ⟨h [] _ rfl, fun pre post hcs ↦ h (c :: pre) post (by rw [hcs, List.cons_append])⟩
  · rintro ⟨hc, h⟩ pre post hcs
    cases pre with
    | nil =>
      rw [List.nil_append] at hcs
      exact hcs ▸ hc
    | cons d pre => exact h pre post (List.cons.inj hcs).2

/-- An occurrence that is read at the very start is the first. -/
theorem isCut_nil {w : Written} {rest : List Char} (h : writtenAt? (w.source ++ rest) = some w) :
    IsCut (w.source ++ rest) [] w rest :=
  ⟨rfl, h, fun _ _ hlt ↦ absurd hlt (Nat.not_lt_zero _)⟩

theorem isCut_cons {c : Char} {cs gap rest : List Char} {w : Written}
    (h : IsCut cs gap w rest) (hc : writtenAt? (c :: cs) = none) :
    IsCut (c :: cs) (c :: gap) w rest := by
  refine ⟨by rw [h.text, List.cons_append, List.cons_append], h.read, ?_⟩
  intro pre post hlt hcs
  cases pre with
  | nil =>
    rw [List.nil_append] at hcs
    exact hcs ▸ hc
  | cons d pre => exact h.free pre post (Nat.lt_of_succ_lt_succ hlt) (List.cons.inj hcs).2

/-- Either nothing is read in a text and all of it is plain, or its pieces are plain characters, the
first occurrence and the pieces of the rest. -/
theorem pieces_cases (cs : List Char) :
    (IsFree cs ∧ pieces cs = cs.map .plain) ∨
      ∃ gap w rest, IsCut cs gap w rest ∧
        pieces cs = gap.map .plain ++ .equation w :: pieces rest := by
  induction cs with
  | nil => exact Or.inl ⟨isFree_nil, rfl⟩
  | cons c cs ih =>
    cases hc : writtenAt? (c :: cs) with
    | some w =>
      obtain ⟨rest, hrest⟩ := writtenAt?_eq hc
      rw [hrest] at hc ⊢
      exact Or.inr ⟨[], w, rest, isCut_nil hc, pieces_append hc⟩
    | none =>
      rw [pieces_cons_of_none hc]
      rcases ih with ⟨hfree, hplain⟩ | ⟨gap, w, rest, hcut, hpieces⟩
      · exact Or.inl ⟨isFree_cons.mpr ⟨hc, hfree⟩, by rw [hplain, List.map_cons]⟩
      · exact Or.inr ⟨c :: gap, w, rest, isCut_cons hcut hc, by
          rw [hpieces, List.map_cons, List.cons_append]⟩

end DocumentMath.Inline
