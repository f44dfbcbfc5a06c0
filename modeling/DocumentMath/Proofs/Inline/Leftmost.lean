import DocumentMath.Inline.Occurrence
import DocumentMath.Proofs.Inline.Grammar
import DocumentMath.Proofs.Text.Position
import DocumentMath.Proofs.Text.Search

/-!
# The leftmost occurrences

`Leftmost` says which inline equations of a text count: from left to right, each time the first one
behind the end of the last, with its shortest payload and with a backslash directly in front of it.
It speaks of the grammar and of positions only, not of how a text is searched. There is one list of
occurrences that it allows (`Leftmost.unique`), and `scan` finds that list.

The link to the search is the first *cut* of a text (`IsCut`): where the search finds something
first, the grammar has its first place (`isNext_of_isCut`).
-/

namespace DocumentMath.Inline

/-! ### The rule -/

/-- The backslash in front of an equation, if it is escaped. -/
def Written.mark (w : Written) : List Char :=
  if w.escaped then ['\\'] else []

theorem Written.source_eq (w : Written) : w.source = w.mark ++ w.body := by
  cases h : w.escaped <;> simp [source, mark, h]

/-- The first inline equation of a text: what stands in front of it, its parts, and the rest. -/
structure IsNext (cs gap : List Char) (w : Written) (rest : List Char) : Prop where
  text : cs = gap ++ w.source ++ rest
  valid : w.IsValid
  /-- No place of the grammar starts earlier. -/
  first : ∀ pre (v : Written) tail, v.IsValid → cs = pre ++ v.body ++ tail →
    (gap ++ w.mark).length ≤ pre.length
  /-- No shorter payload would do. -/
  shortest : ∀ (v : Written) tail, v.IsValid → w.body ++ rest = v.body ++ tail →
    w.payload.length ≤ v.payload.length
  /-- A backslash directly in front belongs to the equation. -/
  escaped : gap.getLast? = some '\\' → w.escaped = true

/-- What is told of the equation `w` when `before` stands in front of it. -/
structure Occurrence.Describes (default : Dialect) (before : List Char) (w : Written)
    (o : Occurrence) : Prop where
  name : o.name = w.name
  dialect : o.dialect = w.name.dialect default
  payload : o.payload = String.ofList w.payload
  subs : o.subs = if w.subs = [] then none else some (String.ofList w.subs)
  escaped : o.escaped = w.escaped
  start : o.start = (String.ofList before).utf8ByteSize
  stop : o.stop = (String.ofList (before ++ w.source)).utf8ByteSize

/-- The leftmost occurrences of a text that has `before` in front of it. -/
inductive Leftmost (default : Dialect) : (before cs : List Char) → List Occurrence → Prop
  | none {before cs} (h : ∀ pre (w : Written) tail, w.IsValid → cs ≠ pre ++ w.body ++ tail) :
    Leftmost default before cs []
  | next {before cs gap w rest o os} (here : IsNext cs gap w rest)
    (describes : o.Describes default (before ++ gap) w)
    (later : Leftmost default (before ++ gap ++ w.source) rest os) :
    Leftmost default before cs (o :: os)

/-! ### The rule leaves no choice -/

/-- Two equations with the same text differ in their payloads at most. -/
theorem name_eq_and_subs_eq_of_body {v w : Written} {vs ws : List Char} (hv : v.IsValid)
    (hw : w.IsValid) (h : v.body ++ vs = w.body ++ ws) : v.name = w.name ∧ v.subs = w.subs := by
  obtain ⟨p, hp, -⟩ := plainAt?_complete hv (List.prefix_append v.body vs)
  obtain ⟨q, hq, -⟩ := plainAt?_complete hw (List.prefix_append w.body ws)
  rw [h, hq] at hp
  simp only [Option.some.injEq, Written.mk.injEq] at hp
  exact ⟨hp.2.1.symm, hp.2.2.1.symm⟩

theorem eq_of_body_eq {v w : Written} {vs ws : List Char} (hv : v.IsValid) (hw : w.IsValid)
    (h : v.body ++ vs = w.body ++ ws) (hlen : v.payload.length = w.payload.length) :
    v.payload = w.payload ∧ vs = ws := by
  obtain ⟨hname, hsubs⟩ := name_eq_and_subs_eq_of_body hv hw h
  simp only [Written.body, hname, hsubs, List.append_assoc, List.cons_append,
    List.append_cancel_left_eq, List.cons.injEq, true_and] at h
  have := List.append_inj h hlen
  exact ⟨this.1, by simpa using this.2⟩

/-- The first equation of a text is determined by the text. -/
theorem IsNext.unique {cs gap gap' rest rest' : List Char} {w w' : Written}
    (h : IsNext cs gap w rest) (h' : IsNext cs gap' w' rest') :
    gap = gap' ∧ w = w' ∧ rest = rest' := by
  have htext : cs = gap ++ w.mark ++ w.body ++ rest := by simp [h.text, w.source_eq]
  have htext' : cs = gap' ++ w'.mark ++ w'.body ++ rest' := by simp [h'.text, w'.source_eq]
  have hlen : (gap ++ w.mark).length = (gap' ++ w'.mark).length :=
    Nat.le_antisymm (h.first _ _ _ h'.valid htext') (h'.first _ _ _ h.valid htext)
  have hsplit := htext.symm.trans htext'
  rw [List.append_assoc _ w.body, List.append_assoc _ w'.body] at hsplit
  obtain ⟨hplace, hbody⟩ := List.append_inj hsplit hlen
  -- with the place of the name the backslash is determined, since a gap does not end in one
  have hesc : w.escaped = w'.escaped := by
    cases he : w.escaped <;> cases he' : w'.escaped <;>
      simp only [Written.mark, he, he', if_true, Bool.false_eq_true, if_false,
        List.append_nil] at hplace
    · rfl
    · have := h.escaped (by simp [hplace])
      rw [he] at this
      cases this
    · have := h'.escaped (by simp [← hplace])
      rw [he'] at this
      cases this
    · rfl
  have hgap : gap = gap' := by
    simp only [Written.mark, hesc] at hplace
    exact List.append_cancel_right hplace
  have hpay : w.payload.length = w'.payload.length :=
    Nat.le_antisymm (h.shortest _ _ h'.valid hbody) (h'.shortest _ _ h.valid hbody.symm)
  obtain ⟨hname, hsubs⟩ := name_eq_and_subs_eq_of_body h.valid h'.valid hbody
  obtain ⟨hpayload, hrest⟩ := eq_of_body_eq h.valid h'.valid hbody hpay
  refine ⟨hgap, ?_, hrest⟩
  cases w
  cases w'
  simp_all

theorem Occurrence.Describes.unique {default : Dialect} {before : List Char} {w : Written}
    {o o' : Occurrence} (h : o.Describes default before w) (h' : o'.Describes default before w) :
    o = o' := by
  cases o
  cases o'
  obtain ⟨h₁, h₂, h₃, h₄, h₅, h₆, h₇⟩ := h
  obtain ⟨h₁', h₂', h₃', h₄', h₅', h₆', h₇'⟩ := h'
  simp_all

/-- A text has one list of leftmost occurrences. -/
theorem Leftmost.unique {default : Dialect} {before cs : List Char} {os os' : List Occurrence}
    (h : Leftmost default before cs os) (h' : Leftmost default before cs os') : os = os' := by
  induction h generalizing os' with
  | none hnone =>
    cases h' with
    | none => rfl
    | @next _ _ gap w _ _ _ here =>
      have htext := here.text
      rw [w.source_eq, ← List.append_assoc] at htext
      exact absurd htext (hnone _ _ _ here.valid)
  | @next before cs gap w rest o os here describes later ih =>
    cases h' with
    | none hnone =>
      have htext := here.text
      rw [w.source_eq, ← List.append_assoc] at htext
      exact absurd htext (hnone _ _ _ here.valid)
    | next here' describes' later' =>
      obtain ⟨rfl, rfl, rfl⟩ := here.unique here'
      rw [describes.unique describes', ih later']

/-! ### What the search finds -/

/-- A backslash more or less does not matter to the grammar. -/
theorem Written.IsValid.setEscaped {w : Written} (h : w.IsValid) (escaped : Bool) :
    ({ w with escaped } : Written).IsValid :=
  ⟨h.subs, h.payload⟩

/-- The equation without its backslash. -/
theorem writtenAt?_body_append {w : Written} (hw : w.IsValid) (rest : List Char) :
    ∃ p, writtenAt? (w.body ++ rest) = some ⟨false, w.name, w.subs, p⟩ ∧
      p.length ≤ w.payload.length :=
  writtenAt?_complete (hw.setEscaped false) (List.prefix_append w.body rest)

/-- A text in which nothing is read has no place of the grammar. -/
theorem IsFree.ne_place {cs : List Char} (h : IsFree cs) (pre : List Char) (w : Written)
    (tail : List Char) (hw : w.IsValid) : cs ≠ pre ++ w.body ++ tail := by
  intro hcs
  obtain ⟨p, hp, -⟩ := writtenAt?_body_append hw tail
  rw [h pre (w.body ++ tail) (by rw [hcs, List.append_assoc])] at hp
  cases hp

/-- Where the search finds something first, the grammar has its first place. -/
theorem isNext_of_isCut {cs gap rest : List Char} {w : Written} (h : IsCut cs gap w rest) :
    IsNext cs gap w rest where
  text := h.text
  valid := writtenAt?_isValid h.read
  first := by
    intro pre v tail hv hcs
    by_contra hlt
    rw [List.length_append] at hlt
    rcases Nat.lt_or_ge pre.length gap.length with hpre | hpre
    · obtain ⟨p, hp, -⟩ := writtenAt?_body_append hv tail
      rw [h.free pre (v.body ++ tail) hpre (by rw [hcs, List.append_assoc])] at hp
      cases hp
    · -- only the place of the backslash is left, and no name starts with one
      cases hesc : w.escaped with
      | false => simp [Written.mark, hesc] at hlt; omega
      | true =>
        simp only [Written.mark, hesc, if_true, List.length_singleton] at hlt
        have heq := hcs.symm.trans h.text
        rw [List.append_assoc, List.append_assoc] at heq
        have htail := (List.append_inj heq (by omega)).2
        rw [Written.source, hesc] at htail
        exact head_body_ne v tail _ htail
  shortest := by
    intro v tail hv hbody
    have hsource : ({ v with escaped := w.escaped } : Written).source <+: w.source ++ rest := by
      rw [w.source_eq, List.append_assoc, hbody, Written.source_eq]
      exact ⟨tail, List.append_assoc _ _ _⟩
    obtain ⟨p, hp, hle⟩ := writtenAt?_complete (hv.setEscaped w.escaped) hsource
    rw [h.read, Option.some.injEq] at hp
    rw [hp]
    exact hle
  escaped := by
    intro hlast
    by_contra hesc
    -- the equation would have been read with the backslash, one place earlier
    obtain ⟨g, rfl⟩ := List.getLast?_eq_some_iff.mp hlast
    have hw := writtenAt?_isValid h.read
    have hsource : ({ w with escaped := true } : Written).source <+:
        '\\' :: (w.source ++ rest) := by
      rw [show w.source = w.body by simp [Written.source, hesc]]
      exact ⟨rest, rfl⟩
    obtain ⟨p, hp, -⟩ := writtenAt?_complete (hw.setEscaped true) hsource
    rw [h.free g _ (by simp) (by rw [h.text]; simp)] at hp
    cases hp

theorem occurrencesOf_map_plain_append (default : Dialect) (offset : Nat) (gap : List Char)
    (ps : List Piece) :
    occurrencesOf default offset (gap.map .plain ++ ps)
      = occurrencesOf default (offset + Text.utf8Length gap) ps := by
  induction gap generalizing offset with
  | nil => rfl
  | cons c gap ih =>
    rw [List.map_cons, List.cons_append, occurrencesOf, ih, Text.utf8Length_cons, Nat.add_assoc]

theorem occurrencesOf_map_plain (default : Dialect) (offset : Nat) (cs : List Char) :
    occurrencesOf default offset (cs.map .plain) = [] := by
  simpa [occurrencesOf] using occurrencesOf_map_plain_append default offset cs []

theorem Written.describes_occurrence (default : Dialect) (before : List Char) (w : Written) :
    (w.occurrence default (Text.utf8Length before)).Describes default before w where
  name := rfl
  dialect := rfl
  payload := rfl
  subs := by simp [occurrence]
  escaped := rfl
  start := (Text.utf8ByteSize_ofList before).symm
  stop := by rw [Text.utf8ByteSize_ofList, Text.utf8Length_append]; rfl

theorem leftmost_occurrencesOf (default : Dialect) (before cs : List Char) :
    Leftmost default before cs (occurrencesOf default (Text.utf8Length before) (pieces cs)) := by
  -- the rest behind the first occurrence is shorter than the text
  induction hn : cs.length using Nat.strongRecOn generalizing before cs with
  | ind n ih =>
    rcases pieces_cases cs with ⟨hfree, hpieces⟩ | ⟨gap, w, rest, hcut, hpieces⟩
    · rw [hpieces, occurrencesOf_map_plain]
      exact Leftmost.none fun pre w tail hw ↦ hfree.ne_place pre w tail hw
    · rw [hpieces, occurrencesOf_map_plain_append, ← Text.utf8Length_append, occurrencesOf,
        ← Text.utf8Length_append]
      have hlen := congrArg List.length hcut.text
      have hpos := w.length_source_pos
      simp only [List.length_append] at hlen
      exact Leftmost.next (isNext_of_isCut hcut) (w.describes_occurrence default _)
        (ih rest.length (by omega) _ rest rfl)

/-- A text that holds a place of the grammar is not passed over. -/
theorem mayContain_of_place {text : String} {pre tail : List Char} {w : Written}
    (h : text.toList = pre ++ w.body ++ tail) : mayContain text = true := by
  rw [mayContain, Bool.and_eq_true]
  refine ⟨by simp [h, Written.body], List.any_eq_true.mpr ⟨w.name, ?_, ?_⟩⟩
  · cases w.name <;> simp [MacroName.all]
  · rw [Text.occursIn_iff, h]
    refine ⟨pre, ':' :: (w.subs ++ '[' :: (w.payload ++ [']'])) ++ tail, ?_⟩
    simp [Written.body]

/-- A text that is passed over has no place for an equation, valid or not. -/
theorem ne_place_of_not_mayContain {text : String} (h : ¬mayContain text = true)
    (pre : List Char) (w : Written) (post : List Char) :
    text.toList ≠ pre ++ w.source ++ post := by
  intro htext
  rw [w.source_eq, ← List.append_assoc] at htext
  exact h (mayContain_of_place htext)

/-- In a text that is passed over nothing would be read. -/
theorem pieces_of_not_mayContain {text : String} (h : ¬mayContain text = true) :
    pieces text.toList = text.toList.map .plain := by
  rcases pieces_cases text.toList with ⟨-, hplain⟩ | ⟨gap, w, rest, hcut, -⟩
  · exact hplain
  · exact absurd hcut.text (ne_place_of_not_mayContain h gap w rest)

theorem occurrences_of_not_mayContain {text : String} (h : ¬mayContain text = true)
    (default : Dialect) : occurrences default text = [] := by
  rw [occurrences, pieces_of_not_mayContain h, occurrencesOf_map_plain]

/-- The cheap test loses nothing. -/
theorem scan_eq_occurrences (default : Dialect) (text : String) :
    scan default text = occurrences default text := by
  rw [scan]
  split
  · rfl
  · next hmay => rw [occurrences_of_not_mayContain hmay]

/-- The leftmost occurrences overlap every piece of the text that the grammar allows. -/
theorem Leftmost.overlaps {default : Dialect} {before cs : List Char} {os : List Occurrence}
    (h : Leftmost default before cs os) {pre post : List Char} {v : Written} (hv : v.IsValid)
    (hcs : cs = pre ++ v.source ++ post) :
    ∃ o ∈ os, o.start < (String.ofList (before ++ pre ++ v.source)).utf8ByteSize ∧
      (String.ofList (before ++ pre)).utf8ByteSize < o.stop := by
  simp only [Text.utf8ByteSize_ofList]
  induction h generalizing pre with
  | none hnone =>
    rw [v.source_eq, ← List.append_assoc] at hcs
    exact absurd hcs (hnone _ _ _ hv)
  | @next before cs gap w rest o os here describes later ih =>
    have htext := here.text
    rcases Nat.lt_or_ge pre.length (gap ++ w.source).length with hlt | hge
    · -- the piece starts in front of the end of the first occurrence, and no earlier than it
      refine ⟨o, List.mem_cons_self, ?_, ?_⟩
      · have hfirst := here.first (pre ++ v.mark) v post hv (by rw [hcs, v.source_eq]; simp)
        have hbody := v.length_body_pos
        simp only [List.length_append] at hfirst
        rw [describes.start, Text.utf8ByteSize_ofList, List.append_assoc before pre,
          Text.utf8Length_append before, Text.utf8Length_append before, Nat.add_lt_add_iff_left]
        have hgap : gap <+: cs := ⟨w.source ++ rest, by rw [htext, List.append_assoc]⟩
        refine Text.utf8Length_lt_of_prefix hgap ⟨post, hcs.symm⟩ ?_
        simp only [List.length_append, v.source_eq]
        omega
      · rw [describes.stop, Text.utf8ByteSize_ofList, List.append_assoc,
          Text.utf8Length_append before, Text.utf8Length_append before, Nat.add_lt_add_iff_left]
        exact Text.utf8Length_lt_of_prefix ⟨v.source ++ post, by rw [hcs, List.append_assoc]⟩
          ⟨rest, htext.symm⟩ hlt
    · -- the piece lies in the rest
      obtain ⟨pre', rfl⟩ : gap ++ w.source <+: pre :=
        List.prefix_of_prefix_length_le ⟨rest, htext.symm⟩
          ⟨v.source ++ post, by rw [hcs, List.append_assoc]⟩ hge
      rw [htext, List.append_assoc (gap ++ w.source), List.append_assoc (gap ++ w.source),
        List.append_cancel_left_eq] at hcs
      obtain ⟨o', ho', hstart, hstop⟩ := ih hcs
      refine ⟨o', List.mem_cons_of_mem _ ho', ?_, ?_⟩
      · simpa [List.append_assoc] using hstart
      · simpa [List.append_assoc] using hstop

theorem leftmost_scan (default : Dialect) (text : String) :
    Leftmost default [] text.toList (scan default text) := by
  rw [scan_eq_occurrences]
  exact leftmost_occurrencesOf default [] text.toList

/-- **The search finds exactly the leftmost occurrences**, with their parts and positions, and every
piece of the text that the grammar allows overlaps one of them. -/
theorem scan_eq_iff_leftmost (default : Dialect) (text : String) :
    (∀ os, scan default text = os ↔ Leftmost default [] text.toList os) ∧
      ∀ (pre post : List Char) (w : Written), w.IsValid → text.toList = pre ++ w.source ++ post →
        ∃ o ∈ scan default text,
          o.start < (String.ofList (pre ++ w.source)).utf8ByteSize ∧
            (String.ofList pre).utf8ByteSize < o.stop := by
  refine ⟨fun os ↦ ⟨?_, fun h ↦ (leftmost_scan default text).unique h⟩, ?_⟩
  · rintro rfl
    exact leftmost_scan default text
  · intro pre post w hw htext
    simpa using (leftmost_scan default text).overlaps hw htext

end DocumentMath.Inline
