import DocumentMath.Proofs.Inline.Leftmost

/-!
# Where an inline equation ends

A closing bracket in a payload is meant to stand behind a backslash. `Leftmost.closes` says how far
that goes: since of all payloads the shortest is taken, an equation ends at the first closing
bracket without a backslash in front of it that stands behind at least one character of payload. So
only a bracket at the very start of a payload is taken in without a backslash, and with it whatever
follows up to the next bracket, other equations included (`scan_swallows`).
-/

namespace DocumentMath.Inline

/-- Every closing bracket in a text stands directly behind a backslash. -/
def EscapesBrackets (cs : List Char) : Prop :=
  ∀ pre post, cs = pre ++ ']' :: post → pre.getLast? = some '\\'

/-- The text behind an opening bracket closes at the first bracket that could close a payload. -/
theorem IsNext.closes {cs gap rest pre post : List Char} {w : Written} (h : IsNext cs gap w rest)
    (heq : w.payload ++ ']' :: rest = pre ++ ']' :: post) (hne : pre ≠ [])
    (hlast : pre.getLast? ≠ some '\\') : w.payload.length ≤ pre.length := by
  -- what stands in front of the bracket is a payload as well, and the shortest is taken
  have hsome := List.getLast?_eq_some_getLast hne
  have hpre : IsPayload pre := ⟨_, hsome, fun heq ↦ hlast (heq ▸ hsome)⟩
  refine h.shortest { w with payload := pre } post ⟨h.valid.subs, hpre⟩ ?_
  simp only [Written.body, List.append_assoc, List.cons_append, List.nil_append, heq]

/-- A bracket in a payload stands behind a backslash, or else at the very start. -/
theorem IsNext.eq_nil_or_escaped {cs gap rest pre post : List Char} {w : Written}
    (h : IsNext cs gap w rest) (heq : w.payload = pre ++ ']' :: post) :
    pre = [] ∨ pre.getLast? = some '\\' := by
  by_contra hnot
  rw [not_or] at hnot
  have hbehind : w.payload ++ ']' :: rest = pre ++ ']' :: (post ++ ']' :: rest) := by
    rw [heq, List.append_assoc, List.cons_append]
  have hle := h.closes hbehind hnot.1 hnot.2
  rw [heq, List.length_append, List.length_cons] at hle
  omega

theorem IsNext.escapesBrackets_iff {cs gap rest : List Char} {w : Written}
    (h : IsNext cs gap w rest) : EscapesBrackets w.payload ↔ w.payload.head? ≠ some ']' := by
  constructor
  · intro hescapes hhead
    obtain ⟨post, hpost⟩ := List.head?_eq_some_iff.mp hhead
    have hlast := hescapes [] post hpost
    cases hlast
  · intro hhead pre post heq
    refine (h.eq_nil_or_escaped heq).resolve_left ?_
    rintro rfl
    exact hhead (by rw [heq]; rfl)

/-- Each of the leftmost occurrences is the first equation of what stands behind the one before. -/
theorem Leftmost.exists_isNext {default : Dialect} {before cs : List Char} {os : List Occurrence}
    (h : Leftmost default before cs os) : ∀ o ∈ os, ∃ pre cs' gap w rest,
      before ++ cs = pre ++ cs' ∧ IsNext cs' gap w rest ∧ o.Describes default (pre ++ gap) w := by
  induction h with
  | none => exact List.forall_mem_nil _
  | @next before cs gap w rest o os here describes later ih =>
    refine List.forall_mem_cons.mpr ⟨⟨before, cs, gap, w, rest, rfl, here, describes⟩, ?_⟩
    intro o' ho'
    obtain ⟨pre, cs', gap', w', rest', htext, here', describes'⟩ := ih o' ho'
    refine ⟨pre, cs', gap', w', rest', ?_, here', describes'⟩
    rw [← htext, here.text]
    simp only [List.append_assoc]

/-- **An inline equation ends at the first bracket that closes a payload.** Behind its opening
bracket no other closing bracket in front of its end is without a backslash, but for one at the very
start. So the brackets of a payload stand behind backslashes exactly if it does not begin with one.
-/
theorem scan_closes (default : Dialect) (text : String) (o : Occurrence)
    (h : o ∈ scan default text) :
    ∃ before w rest, text.toList = before ++ w.source ++ rest ∧ o.Describes default before w ∧
      (∀ pre post, w.payload ++ ']' :: rest = pre ++ ']' :: post → pre ≠ [] →
        pre.getLast? ≠ some '\\' → w.payload.length ≤ pre.length) ∧
      (EscapesBrackets o.payload.toList ↔ o.payload.toList.head? ≠ some ']') := by
  obtain ⟨pre, cs, gap, w, rest, htext, here, describes⟩ :=
    (leftmost_scan default text).exists_isNext o h
  refine ⟨pre ++ gap, w, rest, ?_, describes, fun _ _ heq ↦ here.closes heq, ?_⟩
  · rw [List.nil_append] at htext
    rw [htext, here.text]
    simp only [List.append_assoc]
  · rw [describes.payload, String.toList_ofList]
    exact here.escapesBrackets_iff

/-- Two equations of which the first has an escaped bracket inside. -/
theorem scan_closes_behind_backslash :
    (⟨.stem, .latex, "[0,1\\]", none, false, 0, 13⟩ : Occurrence)
        ∈ scan .latex "stem:[[0,1\\]] stem:[x]" ∧
      ∃ before w rest, "stem:[[0,1\\]] stem:[x]".toList = before ++ w.source ++ rest ∧
        Occurrence.Describes .latex before w ⟨.stem, .latex, "[0,1\\]", none, false, 0, 13⟩ ∧
        (∀ pre post, w.payload ++ ']' :: rest = pre ++ ']' :: post → pre ≠ [] →
          pre.getLast? ≠ some '\\' → w.payload.length ≤ pre.length) ∧
        (EscapesBrackets "[0,1\\]".toList ↔ "[0,1\\]".toList.head? ≠ some ']') := by
  have hmem : (⟨.stem, .latex, "[0,1\\]", none, false, 0, 13⟩ : Occurrence)
      ∈ scan .latex "stem:[[0,1\\]] stem:[x]" := by
    decide +kernel
  exact ⟨hmem, scan_closes .latex _ _ hmem⟩

/-- An equation without a payload takes in the next one. -/
theorem scan_swallows :
    ¬ ∀ o ∈ scan .latex "stem:[] and stem:[x]", EscapesBrackets o.payload.toList := by
  intro h
  have hmem : (⟨.stem, .latex, "] and stem:[x", none, false, 0, 20⟩ : Occurrence)
      ∈ scan .latex "stem:[] and stem:[x]" := by
    decide +kernel
  have hlast := h _ hmem [] " and stem:[x".toList (by decide +kernel)
  cases hlast

end DocumentMath.Inline
