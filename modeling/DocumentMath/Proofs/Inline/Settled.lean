import DocumentMath.Proofs.Inline.Splice

/-!
# Settled texts

A text is *settled* if there is nothing left to do in it: each equation that is read in it is blank
and not escaped. Replacing leaves a settled text as it is and asks about nothing
(`IsSettled.asked`, `IsSettled.replacedBy`).

The other way round, `isSettled_replacedBy` says when replacing settles a text: when no equation in
it is escaped, and each one asked about is replaced by a *reference*, a text like `image:x[]` that
opens with a word of its own and closes with a bracket. What has to be seen is that nothing new
comes up across the borders. An equation that starts in front of a reference or of a blank equation
has its first colon where that has its own, so that its name would have to end in the word there;
and an opening bracket that stands in front of it could already have been closed in the old text.
-/

namespace DocumentMath.Inline

/-! ### Settled texts stay -/

/-- The equation has nothing to typeset. -/
def Written.IsBlank (w : Written) : Prop :=
  Text.trimEnd w.payload = []

theorem Written.isBlank_occurrence {default : Dialect} {offset : Nat} {w : Written} :
    (w.occurrence default offset).isBlank = true ↔ w.IsBlank := by
  simp [Occurrence.isBlank, occurrence, IsBlank]

/-- Each equation in the text is blank and not escaped. -/
def IsSettled (cs : List Char) : Prop :=
  ∀ w, .equation w ∈ pieces cs → w.escaped = false ∧ w.IsBlank

theorem isAsked_of_isBlank (default : Dialect) (offset : Nat) {w : Written} (h : w.IsBlank) :
    (w.occurrence default offset).isAsked = false := by
  rw [isAsked_occurrence, Written.isBlank_occurrence.mpr h, Bool.not_true, Bool.and_false]

theorem filter_occurrencesOf_eq_nil (default : Dialect) (offset : Nat) {ps : List Piece}
    (h : ∀ w, .equation w ∈ ps → w.escaped = false ∧ w.IsBlank) :
    (occurrencesOf default offset ps).filter Occurrence.isAsked = [] := by
  induction ps generalizing offset with
  | nil => rfl
  | cons piece ps ih =>
    have hps : ∀ w, .equation w ∈ ps → w.escaped = false ∧ w.IsBlank :=
      fun w hw ↦ h w (List.mem_cons_of_mem _ hw)
    cases piece with
    | plain c => exact ih _ hps
    | equation w =>
      have hasked := isAsked_of_isBlank default offset (h w List.mem_cons_self).2
      rw [occurrencesOf, List.filter_cons, hasked]
      exact ih _ hps

theorem filled_of_settled (default : Dialect) (offset : Nat) {ps : List Piece}
    (h : ∀ w, .equation w ∈ ps → w.escaped = false ∧ w.IsBlank) :
    filled default offset ps [] = (ps.flatMap Piece.source, false, 0) := by
  induction ps generalizing offset with
  | nil => rfl
  | cons piece ps ih =>
    have hps : ∀ w, .equation w ∈ ps → w.escaped = false ∧ w.IsBlank :=
      fun w hw ↦ h w (List.mem_cons_of_mem _ hw)
    cases piece with
    | plain c =>
      rw [filled, ih _ hps]
      rfl
    | equation w =>
      have hw := h w List.mem_cons_self
      have hasked := isAsked_of_isBlank default offset hw.2
      simp [filled, newAt?, answersAfter, hasked, hw.1, ih _ hps, Piece.source]

/-- In a settled text the caller is asked about nothing. -/
theorem IsSettled.asked {default : Dialect} {text : String} (h : IsSettled text.toList) :
    asked default text = [] := by
  rw [Inline.asked, scan_eq_occurrences, occurrences]
  exact filter_occurrencesOf_eq_nil default 0 h

/-- A settled text stays as it is. -/
theorem IsSettled.replacedBy {default : Dialect} {text : String} (h : IsSettled text.toList) :
    replacedBy default text [] = ⟨text, false, 0⟩ := by
  rw [Inline.replacedBy, filled_of_settled default 0 h]
  simp only [source_pieces, String.ofList_toList]

/-! ### References -/

/-- A name with its colon stands somewhere in the text. -/
def Opens (cs : List Char) : Prop :=
  ∃ name : MacroName, name.chars ++ [':'] <:+: cs

/-- A text that opens with a word, which no name ends in, and a colon, and closes with a bracket,
and in which no equation opens. -/
structure IsReference (cs : List Char) : Prop where
  lead : ∃ word rest, cs = word ++ ':' :: rest ∧ (∀ c ∈ word, isSubsChar c = true) ∧
    ∀ name : MacroName, ¬ word <:+ name.chars
  last : cs.getLast? = some ']'
  quiet : ¬ Opens cs

/-- Characters at which nothing is read, whatever they are followed by, are plain. -/
theorem pieces_append_of_none {gap rest : List Char}
    (h : ∀ pre post, gap = pre ++ post → post ≠ [] → writtenAt? (post ++ rest) = none) :
    pieces (gap ++ rest) = gap.map .plain ++ pieces rest := by
  induction gap with
  | nil => rfl
  | cons c gap ih =>
    have hc := h [] (c :: gap) rfl (List.cons_ne_nil c gap)
    rw [List.cons_append] at hc
    rw [List.cons_append, pieces_cons_of_none hc, ih, List.map_cons, List.cons_append]
    intro pre post hgap hpost
    exact h (c :: pre) post (by rw [hgap, List.cons_append]) hpost

/-- Nothing is read in a reference, not even when more follows. -/
theorem IsReference.pieces_append {cs : List Char} (h : IsReference cs) (rest : List Char) :
    pieces (cs ++ rest) = cs.map .plain ++ pieces rest := by
  refine pieces_append_of_none fun pre post hcs hpost ↦ ?_
  rw [writtenAt?_eq_none_iff]
  intro v _ hv
  have hopen : v.mark ++ (v.name.chars ++ [':']) <+: post ++ rest := by
    refine List.IsPrefix.trans ?_ hv
    rw [v.source_eq, Written.body]
    simp
  rcases List.prefix_or_prefix_of_prefix hopen (List.prefix_append post rest) with hle | hle
  · refine h.quiet ⟨v.name, ?_⟩
    obtain ⟨tail, rfl⟩ := hle
    exact ⟨pre ++ v.mark, tail, by rw [hcs]; simp⟩
  · -- the closing bracket would have to be in front of the colon
    have hlast : ']' ∈ post := by
      have := h.last
      rw [hcs, List.getLast?_append_of_ne_nil _ hpost] at this
      exact List.mem_of_getLast? this
    have hmem := hle.subset hlast
    cases v.escaped <;> cases hn : v.name <;> simp [Written.mark, hn] at hmem

/-! ### Nothing new in front -/

/-- The characters of an equation up to its payload. -/
def Written.opener (w : Written) : List Char :=
  w.mark ++ w.name.chars ++ ':' :: (w.subs ++ ['['])

theorem Written.source_eq_opener (w : Written) :
    w.source = w.opener ++ (w.payload ++ [']']) := by
  simp [source_eq, body, opener]

theorem colon_not_mem_chars (name : MacroName) : ':' ∉ name.chars := by
  cases name <;> decide

/-- What an opener has behind a beginning of it ends in its bracket. -/
theorem Written.bracket_mem_of_opener_eq {w : Written} {front later : List Char}
    (h : front ++ later = w.opener) (hne : later ≠ []) : '[' ∈ later := by
  have hlast : w.opener.getLast? = some '[' := by
    rw [opener, ← List.cons_append, ← List.append_assoc, List.getLast?_concat]
  rw [← h, List.getLast?_append_of_ne_nil _ hne] at hlast
  exact List.mem_of_getLast? hlast

/-- An opener has one colon, and the name ends in front of it. -/
theorem Written.mark_append_chars_eq {w : Written} (hw : w.IsValid) {front behind : List Char}
    (h : w.opener = front ++ ':' :: behind) : w.mark ++ w.name.chars = front := by
  have hmark : ':' ∉ w.mark ++ w.name.chars := by
    intro hmem
    rcases List.mem_append.mp hmem with hmem | hmem
    · rw [mark] at hmem
      cases w.escaped <;> simp at hmem
    · exact colon_not_mem_chars w.name hmem
  have hsubs : ':' ∉ w.subs ++ ['['] := by
    intro hmem
    rcases List.mem_append.mp hmem with hmem | hmem
    · exact absurd (hw.subs _ hmem) (by decide)
    · simp at hmem
  exact ((List.append_cons_inj_of_notMem hmark hsubs).mp h).1

theorem IsPayload.append {p : List Char} (h : IsPayload p) (cs : List Char) :
    IsPayload (cs ++ p) := by
  obtain ⟨c, hc, hne⟩ := h
  exact ⟨c, by rw [List.getLast?_append, hc, Option.some_or], hne⟩

section Gap

variable {cs pre gap rest : List Char} {w : Written}

/-- No equation opens in front of the first one, since that would close it. -/
theorem IsCut.not_opener_prefix (h : IsCut cs (pre ++ gap) w rest) (hgap : gap ≠ [])
    {v : Written} (hv : v.IsValid) : ¬ v.opener <+: gap := by
  rintro ⟨inside, rfl⟩
  have hw := (writtenAt?_isValid h.read).payload
  have htext : cs = pre ++
      (v.opener ++ (inside ++ w.opener ++ w.payload ++ [']']) ++ rest) := by
    rw [h.text, w.source_eq_opener]
    simp
  have hlt : pre.length < (pre ++ (v.opener ++ inside)).length := by
    rw [List.length_append]
    have := List.length_pos_of_ne_nil hgap
    omega
  have hnone := writtenAt?_eq_none_iff.mp (h.free pre _ hlt htext)
  refine hnone { v with payload := inside ++ w.opener ++ w.payload }
    ⟨hv.subs, hw.append _⟩ ⟨rest, ?_⟩
  rw [Written.source_eq_opener]
  rfl

/-- In front of the first equation of a text nothing is read when that is replaced by a text with a
word and a colon at its start, unless a name ends in that word and is longer. -/
theorem IsCut.writtenAt?_gap (h : IsCut cs (pre ++ gap) w rest) (hgap : gap ≠ [])
    (hesc : w.escaped = false) {word tail : List Char} (hword : ∀ c ∈ word, isSubsChar c = true)
    (hname : ∀ name : MacroName, word <:+ name.chars → word = name.chars) :
    writtenAt? (gap ++ (word ++ ':' :: tail)) = none := by
  rw [writtenAt?_eq_none_iff]
  intro v hv hsource
  have hopener : v.opener <+: gap ++ (word ++ ':' :: tail) :=
    List.IsPrefix.trans ⟨_, v.source_eq_opener.symm⟩ hsource
  have hnot := h.not_opener_prefix hgap hv
  obtain ⟨later, hlater⟩ :=
    (List.prefix_or_prefix_of_prefix hopener (List.prefix_append gap _)).resolve_left hnot
  -- what is left of the opener ends in its bracket, which is not in the word
  have hne : later ≠ [] := by
    rintro rfl
    exact hnot ⟨[], by rw [← hlater, List.append_nil, List.append_nil]⟩
  have hbracketWord : '[' ∉ word ++ [':'] := by
    intro hmem
    rcases List.mem_append.mp hmem with hmem | hmem
    · exact absurd (hword _ hmem) (by decide)
    · simp at hmem
  have hprefix : later <+: word ++ [':'] ++ tail := by
    rw [← hlater, List.prefix_append_right_inj] at hopener
    simpa using hopener
  obtain ⟨inside, rfl⟩ : word ++ [':'] <+: later :=
    (List.prefix_or_prefix_of_prefix hprefix (List.prefix_append _ tail)).resolve_left
      fun hle ↦ hbracketWord (hle.subset (Written.bracket_mem_of_opener_eq hlater hne))
  have hcolon : v.opener = gap ++ word ++ ':' :: inside := by
    rw [← hlater]
    simp
  have hplace := Written.mark_append_chars_eq hv hcolon
  -- the gap then is what the name has in front of the word, or a backslash and that
  rw [Written.mark] at hplace
  cases hescaped : v.escaped with
  | false =>
    rw [hescaped] at hplace
    have hall := hname v.name ⟨gap, hplace.symm⟩
    rw [hall] at hplace
    exact hgap (List.self_eq_append_left.mp hplace)
  | true =>
    rw [hescaped] at hplace
    obtain ⟨c, gap, rfl⟩ := List.exists_cons_of_ne_nil hgap
    obtain ⟨rfl, hrest⟩ := List.cons.inj hplace
    have hall := hname v.name ⟨gap, hrest.symm⟩
    rw [hall] at hrest
    obtain rfl := List.self_eq_append_left.mp hrest
    -- the backslash would have been read with the first equation
    have := (isNext_of_isCut h).escaped List.getLast?_concat
    rw [hesc] at this
    cases this

/-- So what stands in front of the first equation stays plain. -/
theorem IsCut.pieces_gap (h : IsCut cs gap w rest) (hesc : w.escaped = false)
    {word : List Char} (tail : List Char) (hword : ∀ c ∈ word, isSubsChar c = true)
    (hname : ∀ name : MacroName, word <:+ name.chars → word = name.chars) :
    pieces (gap ++ (word ++ ':' :: tail)) = gap.map .plain ++ pieces (word ++ ':' :: tail) := by
  refine pieces_append_of_none fun pre post hgap hpost ↦ ?_
  rw [hgap] at h
  exact h.writtenAt?_gap hpost hesc hword hname

end Gap

/-! ### Replacing settles -/

/-- No name ends in another. -/
theorem chars_eq_of_suffix {name name' : MacroName} (h : name.chars <:+ name'.chars) :
    name.chars = name'.chars := by
  revert h
  cases name <;> cases name' <;> decide

theorem isSubsChar_of_mem_chars (name : MacroName) : ∀ c ∈ name.chars, isSubsChar c = true :=
  List.all_eq_true.mp (by cases name <;> decide)

theorem isSettled_of_pieces_eq {cs gap : List Char} {ps : List Piece}
    (h : pieces cs = gap.map .plain ++ ps)
    (hps : ∀ w, .equation w ∈ ps → w.escaped = false ∧ w.IsBlank) : IsSettled cs := by
  intro w hw
  rw [h, List.mem_append] at hw
  rcases hw with hw | hw
  · obtain ⟨c, -, hc⟩ := List.mem_map.mp hw
    cases hc
  · exact hps w hw

/-- A text in which nothing is read is settled. -/
theorem isSettled_of_pieces_eq_map {cs : List Char} (h : pieces cs = cs.map .plain) :
    IsSettled cs := by
  rw [← List.append_nil (cs.map Piece.plain)] at h
  exact isSettled_of_pieces_eq h fun _ hw ↦ absurd hw List.not_mem_nil

/-- A settled text stays settled with a blank equation in front of it and what was in front of
that. -/
theorem IsCut.isSettled_of_blank {cs gap rest new : List Char} {w : Written}
    (h : IsCut cs gap w rest) (hesc : w.escaped = false) (hblank : w.IsBlank)
    (hnew : IsSettled new) : IsSettled (gap ++ (w.source ++ new)) := by
  have hread := pieces_append (writtenAt?_source_append h.read new)
  have hgap : pieces (gap ++ (w.source ++ new)) = gap.map .plain ++ pieces (w.source ++ new) := by
    have := h.pieces_gap hesc (w.subs ++ '[' :: (w.payload ++ [']']) ++ new)
      (isSubsChar_of_mem_chars w.name) fun _ ↦ chars_eq_of_suffix
    simpa [Written.source, Written.body, hesc] using this
  refine isSettled_of_pieces_eq hgap fun v hv ↦ ?_
  rw [hread, List.mem_cons] at hv
  rcases hv with hv | hv
  · cases hv
    exact ⟨hesc, hblank⟩
  · exact hnew v hv

/-- A settled text stays settled with a reference in front of it in the place of an equation. -/
theorem IsCut.isSettled_of_isReference {cs gap rest new reference : List Char} {w : Written}
    (h : IsCut cs gap w rest) (hesc : w.escaped = false) (href : IsReference reference)
    (hnew : IsSettled new) : IsSettled (gap ++ (reference ++ new)) := by
  have hread := href.pieces_append new
  obtain ⟨word, tail, hlead, hword, hname⟩ := href.lead
  have hgap : pieces (gap ++ (reference ++ new))
      = gap.map .plain ++ pieces (reference ++ new) := by
    have := h.pieces_gap hesc (tail ++ new) hword fun name hsuffix ↦
      absurd hsuffix (hname name)
    simpa [hlead] using this
  have hpieces : pieces (gap ++ (reference ++ new))
      = (gap ++ reference).map .plain ++ pieces new := by
    rw [hgap, hread, List.map_append, List.append_assoc]
  exact isSettled_of_pieces_eq hpieces hnew

theorem filled_map_plain_append (default : Dialect) (offset : Nat) (gap : List Char)
    (ps : List Piece) (answers : List (Option String)) :
    (filled default offset (gap.map .plain ++ ps) answers).1
      = gap ++ (filled default (offset + Text.utf8Length gap) ps answers).1 := by
  induction gap generalizing offset with
  | nil => rfl
  | cons c gap ih =>
    simp only [List.map_cons, List.cons_append, filled, ih, Text.utf8Length_cons, Nat.add_assoc]

/-- With a reference for each equation asked about, and none escaped, the new text of pieces is
settled. -/
theorem isSettled_filled (default : Dialect) (offset : Nat) (cs : List Char)
    (answers : List (Option String)) (hesc : ∀ w, .equation w ∈ pieces cs → w.escaped = false)
    (hlen : answers.length
      = ((occurrencesOf default offset (pieces cs)).filter Occurrence.isAsked).length)
    (hanswers : ∀ a ∈ answers, ∃ new, a = some new ∧ IsReference new.toList) :
    IsSettled (filled default offset (pieces cs) answers).1 := by
  -- the rest behind the first occurrence is shorter than the text
  induction hn : cs.length using Nat.strongRecOn generalizing cs offset answers with
  | ind n ih =>
    rcases pieces_cases cs with ⟨-, hplain⟩ | ⟨gap, w, rest, hcut, hpieces⟩
    · rw [hplain, filled_map_plain]
      exact isSettled_of_pieces_eq_map hplain
    · have hshorter : rest.length < n := by
        rw [← hn, hcut.text]
        have := w.length_source_pos
        simp only [List.length_append]
        omega
      have hw : w.escaped = false := hesc w (by rw [hpieces]; simp)
      have hrest : ∀ v, .equation v ∈ pieces rest → v.escaped = false :=
        fun v hv ↦ hesc v (by rw [hpieces]; simp [hv])
      rw [hpieces, occurrencesOf_map_plain_append, occurrencesOf, List.filter_cons,
        isAsked_occurrence, hw] at hlen
      rw [hpieces, filled_map_plain_append]
      simp only [filled, newAt?, answersAfter, isAsked_occurrence, hw]
      cases hblank : (w.occurrence default (offset + Text.utf8Length gap)).isBlank with
      | true =>
        rw [hblank] at hlen
        exact hcut.isSettled_of_blank hw (Written.isBlank_occurrence.mp hblank)
          (ih _ hshorter _ rest answers hrest hlen hanswers rfl)
      | false =>
        rw [hblank] at hlen
        obtain ⟨answer, answers, rfl⟩ := List.exists_cons_of_length_eq_add_one hlen
        obtain ⟨⟨new, rfl, href⟩, hanswers'⟩ := List.forall_mem_cons.mp hanswers
        exact hcut.isSettled_of_isReference hw href
          (ih _ hshorter _ rest answers hrest (Nat.succ.inj hlen) hanswers' rfl)

/-- With no backslash lost, no equation is escaped. -/
theorem escaped_eq_false_of_filled {default : Dialect} {offset : Nat} {ps : List Piece}
    {answers : List (Option String)} (h : (filled default offset ps answers).2.2 = 0) :
    ∀ w, .equation w ∈ ps → w.escaped = false := by
  induction ps generalizing offset answers with
  | nil => exact fun _ hw ↦ absurd hw List.not_mem_nil
  | cons piece ps ih =>
    intro w hw
    cases piece with
    | plain c =>
      rcases List.mem_cons.mp hw with hw | hw
      · cases hw
      · exact ih h w hw
    | equation v =>
      simp only [filled, Nat.add_eq_zero_iff] at h
      rcases List.mem_cons.mp hw with hw | hw
      · cases hw
        simpa using h.1
      · exact ih h.2 w hw

/-- **Replacing settles.** When no equation is escaped and a reference takes the place of each one
asked about, nothing is left to do in the new text. -/
theorem isSettled_replacedBy {default : Dialect} {text : String} {answers : List (Option String)}
    (hlen : answers.length = (asked default text).length)
    (hescaped : (replacedBy default text answers).escaped = 0)
    (hanswers : ∀ a ∈ answers, ∃ new, a = some new ∧ IsReference new.toList) :
    IsSettled (replacedBy default text answers).text.toList := by
  rw [asked, scan_eq_occurrences] at hlen
  show IsSettled (String.ofList (filled default 0 (pieces text.toList) answers).1).toList
  rw [String.toList_ofList]
  exact isSettled_filled default 0 _ answers (escaped_eq_false_of_filled hescaped) hlen hanswers

/-- A text that is not even searched is settled. -/
theorem isSettled_of_not_mayContain {text : String} (h : ¬mayContain text = true) :
    IsSettled text.toList :=
  isSettled_of_pieces_eq_map (pieces_of_not_mayContain h)

end DocumentMath.Inline
