import DocumentMath.Proofs.Inline.Settled

/-!
# Escaping protects a text

With one more backslash in front of each of its inline equations a text is safe from replacing: the
caller is asked about nothing, and what comes out is the text as it was
(`replaceEquations_equationsEscaped`).

An equation that was not escaped now is. One that was escaped keeps its backslash, and the new one
is a plain character in front of it. So the equations of the new text are the old ones, each of them
escaped (`pieces_flatMap_backslashed`). That nothing else comes up has the same reason as for
references: an equation that starts in front of a new backslash would have to open there, and then
it would have been closed in the old text already (`IsCut.writtenAt?_backslash`).
-/

namespace DocumentMath.Inline

/-! ### One more backslash -/

/-- The text from a position on, with a backslash put in at each of the positions that follow. -/
def backslashesAt (text : String) : (position : Nat) → (starts : List Nat) → String
  | position, [] => Text.slice text position text.utf8ByteSize
  | position, start :: starts =>
    Text.slice text position start ++ "\\" ++ backslashesAt text start starts

/-- The text with one more backslash in front of each of its inline equations, escaped and blank
ones included. -/
def equationsEscaped (default : Dialect) (text : String) : String :=
  backslashesAt text 0 ((scan default text).map (·.start))

/-- The characters of a piece, with one more backslash in front of an equation. -/
def Piece.backslashed : Piece → List Char
  | plain c => [c]
  | equation w => '\\' :: w.source

/-- What is read of a piece that has one more backslash: of two backslashes the first is plain. -/
def Piece.reread : Piece → List Piece
  | plain c => [.plain c]
  | equation w =>
    if w.escaped then [.plain '\\', .equation w] else [.equation { w with escaped := true }]

/-- The backslashes are put in where the equations among the pieces begin. -/
theorem backslashesAt_starts (default : Dialect) {text : String} {before gap : List Char}
    {ps : List Piece} (h : text.toList = before ++ gap ++ ps.flatMap Piece.source) :
    backslashesAt text (Text.utf8Length before)
        ((occurrencesOf default (Text.utf8Length (before ++ gap)) ps).map (·.start))
      = String.ofList (gap ++ ps.flatMap Piece.backslashed) := by
  -- the gap grows until an equation begins, and then starts again with that equation
  induction ps generalizing before gap with
  | nil =>
    have hsize : text.utf8ByteSize = Text.utf8Length (before ++ gap) := by
      rw [← Text.utf8ByteSize_ofList, ← String.ofList_toList (s := text), h, List.flatMap_nil,
        List.append_nil]
    simp only [occurrencesOf, List.map_nil, backslashesAt, List.flatMap_nil, List.append_nil]
    rw [hsize, Text.slice_eq h]
  | cons piece ps ih =>
    cases piece with
    | plain c =>
      have h' : text.toList = before ++ (gap ++ [c]) ++ ps.flatMap Piece.source := by
        rw [h]
        simp [Piece.source]
      have hoffset : Text.utf8Length (before ++ gap) + c.utf8Size
          = Text.utf8Length (before ++ (gap ++ [c])) := by
        simp [Nat.add_assoc]
      rw [occurrencesOf, hoffset, ih h', List.flatMap_cons, Piece.backslashed, List.append_assoc]
    | equation w =>
      have h' : text.toList = before ++ gap ++ w.source ++ ps.flatMap Piece.source := by
        rw [h]
        simp [Piece.source]
      have hgap : Text.slice text (Text.utf8Length before) (Text.utf8Length (before ++ gap))
          = String.ofList gap :=
        Text.slice_eq (by rw [h', List.append_assoc])
      have hstart : (w.occurrence default (Text.utf8Length (before ++ gap))).start
          = Text.utf8Length (before ++ gap) := rfl
      rw [occurrencesOf, ← Text.utf8Length_append, List.map_cons, hstart, backslashesAt, hgap,
        ih h', List.flatMap_cons, Piece.backslashed]
      simp [String.ofList_append, String.append_assoc]

theorem toList_equationsEscaped (default : Dialect) (text : String) :
    (equationsEscaped default text).toList = (pieces text.toList).flatMap Piece.backslashed := by
  have htext : text.toList = [] ++ [] ++ (pieces text.toList).flatMap Piece.source := by
    rw [source_pieces]
    rfl
  have hstarts := backslashesAt_starts default htext
  rw [equationsEscaped, scan_eq_occurrences]
  exact (congrArg String.toList hstarts).trans String.toList_ofList

/-! ### What is read then -/

theorem Written.IsValid.backslash_not_mem {w : Written} (h : w.IsValid) :
    '\\' ∉ w.name.chars ++ ':' :: (w.subs ++ ['[']) := by
  intro hmem
  rcases List.mem_append.mp hmem with hmem | hmem
  · exact absurd (isSubsChar_of_mem_chars _ _ hmem) (by decide)
  · simp only [List.mem_cons, List.mem_append, List.not_mem_nil, or_false] at hmem
    rcases hmem with hmem | hmem | hmem
    · exact absurd hmem (by decide)
    · exact absurd (h.subs _ hmem) (by decide)
    · exact absurd hmem (by decide)

/-- In front of the first equation of a text nothing is read when a backslash is put in at its
start. -/
theorem IsCut.writtenAt?_backslash {cs pre gap rest : List Char} {w : Written}
    (h : IsCut cs (pre ++ gap) w rest) (hgap : gap ≠ []) (tail : List Char) :
    writtenAt? (gap ++ '\\' :: tail) = none := by
  rw [writtenAt?_eq_none_iff]
  intro v hv hsource
  have hopener : v.opener <+: gap ++ '\\' :: tail :=
    List.IsPrefix.trans ⟨_, v.source_eq_opener.symm⟩ hsource
  have hnot := h.not_opener_prefix hgap hv
  obtain ⟨later, hlater⟩ :=
    (List.prefix_or_prefix_of_prefix hopener (List.prefix_append gap _)).resolve_left hnot
  -- the opener would go on behind the gap with the backslash, but has none behind its start
  obtain ⟨c, later, rfl⟩ := List.exists_cons_of_ne_nil (l := later) <| by
    rintro rfl
    exact hnot ⟨[], by rw [← hlater, List.append_nil, List.append_nil]⟩
  have hc : c = '\\' := by
    rw [← hlater, List.prefix_append_right_inj] at hopener
    exact (List.cons_prefix_cons.mp hopener).1
  have hmem : '\\' ∈ v.opener.tail := by
    rw [← hlater, List.tail_append_of_ne_nil hgap, hc]
    exact List.mem_append_right _ List.mem_cons_self
  have hbare := hv.backslash_not_mem
  rw [Written.opener, Written.mark] at hmem
  split at hmem
  · exact hbare (by simpa using hmem)
  · exact hbare (List.mem_of_mem_tail (by simpa using hmem))

/-- Behind one more backslash an equation is read escaped, if it was not, and as it is otherwise. -/
theorem pieces_backslash_append {w : Written} {rest : List Char}
    (h : writtenAt? (w.source ++ rest) = some w) :
    pieces ('\\' :: (w.source ++ rest)) = (Piece.equation w).reread ++ pieces rest := by
  cases hesc : w.escaped with
  | false =>
    have hsource : w.source = w.body := by simp [Written.source, hesc]
    rw [hsource, writtenAt?_of_head_ne (head_body_ne w rest)] at h
    have hread : writtenAt? (({ w with escaped := true } : Written).source ++ rest)
        = some { w with escaped := true } := by
      show (plainAt? (w.body ++ rest)).map ({ · with escaped := true }) = _
      rw [h, Option.map_some]
    rw [hsource, Piece.reread, hesc]
    exact pieces_append hread
  | true =>
    have hsource : w.source = '\\' :: w.body := by simp [Written.source, hesc]
    have hnone : writtenAt? ('\\' :: (w.source ++ rest)) = none := by
      rw [writtenAt?, Option.map_eq_none_iff, Option.eq_none_iff_forall_ne_some]
      intro v hv
      obtain ⟨-, tail, htail⟩ := plainAt?_eq hv
      rw [hsource] at htail
      exact head_body_ne v tail _ htail.symm
    rw [pieces_cons_of_none hnone, pieces_append h, Piece.reread, hesc]
    rfl

/-- With one more backslash in front of each equation of a text, the same equations are read, and
each of them escaped. -/
theorem pieces_flatMap_backslashed (cs : List Char) :
    pieces ((pieces cs).flatMap Piece.backslashed) = (pieces cs).flatMap Piece.reread := by
  -- the rest behind the first occurrence is shorter than the text
  induction hn : cs.length using Nat.strongRecOn generalizing cs with
  | ind n ih =>
    have hplain : ∀ gap : List Char, (gap.map Piece.plain).flatMap Piece.backslashed = gap ∧
        (gap.map Piece.plain).flatMap Piece.reread = gap.map .plain := by
      intro gap
      rw [List.flatMap_map, List.flatMap_map]
      exact ⟨List.flatMap_singleton' gap, (List.map_eq_flatMap ..).symm⟩
    rcases pieces_cases cs with ⟨-, hpieces⟩ | ⟨gap, w, rest, hcut, hpieces⟩
    · rw [hpieces, (hplain cs).1, (hplain cs).2, hpieces]
    · have hshorter : rest.length < n := by
        rw [← hn, hcut.text]
        have := w.length_source_pos
        simp only [List.length_append]
        omega
      have hread := writtenAt?_source_append hcut.read ((pieces rest).flatMap Piece.backslashed)
      have hgap : pieces (gap ++ '\\' :: (w.source ++ (pieces rest).flatMap Piece.backslashed))
          = gap.map .plain
            ++ pieces ('\\' :: (w.source ++ (pieces rest).flatMap Piece.backslashed)) := by
        refine pieces_append_of_none fun pre post hsplit hpost ↦ ?_
        rw [hsplit] at hcut
        exact hcut.writtenAt?_backslash hpost _
      rw [hpieces, List.flatMap_append, List.flatMap_append, List.flatMap_cons, List.flatMap_cons,
        (hplain gap).1, (hplain gap).2, Piece.backslashed, List.cons_append, hgap,
        pieces_backslash_append hread, ih _ hshorter rest rfl]

theorem pieces_equationsEscaped (default : Dialect) (text : String) :
    pieces (equationsEscaped default text).toList
      = (pieces text.toList).flatMap Piece.reread := by
  rw [toList_equationsEscaped, pieces_flatMap_backslashed]

/-! ### Nothing is asked about -/

theorem escaped_of_mem_reread {p : Piece} {w : Written} (h : .equation w ∈ p.reread) :
    w.escaped = true := by
  cases p with
  | plain c => simp [Piece.reread] at h
  | equation v =>
    rw [Piece.reread] at h
    split at h
    · next hesc => simp_all
    · simp_all

theorem escaped_of_mem_flatMap_reread {ps : List Piece} {w : Written}
    (h : .equation w ∈ ps.flatMap Piece.reread) : w.escaped = true := by
  obtain ⟨p, -, hp⟩ := List.mem_flatMap.mp h
  exact escaped_of_mem_reread hp

/-- The characters of a piece, without the backslash if it is an equation. -/
def Piece.unescaped : Piece → List Char
  | plain c => [c]
  | equation w => w.body

/-- Where all equations among the pieces are escaped, the caller is asked about none of them. -/
theorem filter_occurrencesOf_of_escaped (default : Dialect) (offset : Nat) {ps : List Piece}
    (h : ∀ w, .equation w ∈ ps → w.escaped = true) :
    (∀ o ∈ occurrencesOf default offset ps, o.escaped = true) ∧
      (occurrencesOf default offset ps).filter Occurrence.isAsked = [] := by
  have hall : ∀ o ∈ occurrencesOf default offset ps, o.escaped = true := by
    induction ps generalizing offset with
    | nil => exact List.forall_mem_nil _
    | cons piece ps ih =>
      have hps : ∀ w, .equation w ∈ ps → w.escaped = true :=
        fun w hw ↦ h w (List.mem_cons_of_mem _ hw)
      cases piece with
      | plain c => exact ih _ hps
      | equation w => exact List.forall_mem_cons.mpr ⟨h w List.mem_cons_self, ih _ hps⟩
  refine ⟨hall, List.filter_eq_nil_iff.mpr fun o ho ↦ ?_⟩
  rw [Occurrence.isAsked, hall o ho]
  exact Bool.false_ne_true

/-- Each of them loses its backslash, and nothing else becomes of the pieces. -/
theorem filled_of_escaped (default : Dialect) (offset : Nat) {ps : List Piece}
    (h : ∀ w, .equation w ∈ ps → w.escaped = true) (answers : List (Option String)) :
    (filled default offset ps answers).1 = ps.flatMap Piece.unescaped := by
  induction ps generalizing offset answers with
  | nil => rfl
  | cons piece ps ih =>
    have hps : ∀ w, .equation w ∈ ps → w.escaped = true :=
      fun w hw ↦ h w (List.mem_cons_of_mem _ hw)
    cases piece with
    | plain c =>
      rw [filled, List.flatMap_cons, ← ih _ hps]
      rfl
    | equation w =>
      rw [filled, List.flatMap_cons, ← ih _ hps, newAt?, if_pos (h w List.mem_cons_self)]
      rfl

theorem flatMap_unescaped_reread (ps : List Piece) :
    (ps.flatMap Piece.reread).flatMap Piece.unescaped = ps.flatMap Piece.source := by
  rw [List.flatMap_assoc]
  congr 1
  funext p
  cases p with
  | plain c => rfl
  | equation w =>
    cases hesc : w.escaped <;>
      simp [Piece.reread, Piece.unescaped, Piece.source, Written.source, Written.body, hesc]

/-- As many equations are read as before. -/
theorem length_occurrencesOf_reread (default : Dialect) (offset offset' : Nat) (ps : List Piece) :
    (occurrencesOf default offset (ps.flatMap Piece.reread)).length
      = (occurrencesOf default offset' ps).length := by
  induction ps generalizing offset offset' with
  | nil => rfl
  | cons piece ps ih =>
    rw [List.flatMap_cons]
    cases piece with
    | plain c => exact ih _ _
    | equation w =>
      rw [Piece.reread]
      split
      · exact congrArg Nat.succ (ih _ _)
      · exact congrArg Nat.succ (ih _ _)

/-- What becomes of the new pieces: the old text, which is another one if there are equations, and
each of these has lost a backslash. -/
theorem filled_reread (default : Dialect) (text : String) :
    filled default 0 ((pieces text.toList).flatMap Piece.reread) []
      = (text.toList, !(scan default text).isEmpty, (scan default text).length) := by
  obtain ⟨hall, hnone⟩ := filter_occurrencesOf_of_escaped default 0
    fun _ hw ↦ escaped_of_mem_flatMap_reread hw
  have hlength := length_occurrencesOf_reread default 0 0 (pieces text.toList)
  refine Prod.ext ?_ (Prod.ext ?_ ?_)
  · rw [filled_of_escaped default 0 fun _ ↦ escaped_of_mem_flatMap_reread,
      flatMap_unescaped_reread, source_pieces]
  · rw [filled_modified default 0 _ [] (by rw [hnone]; rfl), scan_eq_occurrences, occurrences,
      Bool.eq_iff_iff]
    simp only [List.any_nil, Bool.or_false, List.any_eq_true, Bool.not_eq_true',
      List.isEmpty_eq_false_iff, ← List.length_pos_iff, ← hlength]
    rw [List.length_pos_iff_exists_mem]
    exact exists_congr fun o ↦ and_iff_left_of_imp (hall o)
  · rw [filled_escaped, scan_eq_occurrences, occurrences, ← hlength]
    exact List.countP_eq_length.mpr hall

/-! ### Main result -/

/-- **A text with all its equations escaped comes back.** With one more backslash in front of each
equation of a text, blank and escaped ones included, replacing asks about nothing, so that the
caller's state stays what it was. The new text is the old one, and as many equations have lost a
backslash as the old one has. -/
theorem replaceEquations_equationsEscaped {σ ε : Type} (default : Dialect) (text : String)
    (replace : Occurrence → ExceptT ε (StateM σ) (Option String)) (s : σ) :
    asked default (equationsEscaped default text) = [] ∧
      (replaceEquations default (equationsEscaped default text) replace).run.run s
        = (.ok ⟨text, !(scan default text).isEmpty, (scan default text).length⟩, s) := by
  have hpieces := pieces_equationsEscaped default text
  have hasked : asked default (equationsEscaped default text) = [] := by
    rw [asked, scan_eq_occurrences, occurrences, hpieces]
    exact (filter_occurrencesOf_of_escaped default 0 fun _ ↦ escaped_of_mem_flatMap_reread).2
  have hreplaced : replacedBy default (equationsEscaped default text) []
      = ⟨text, !(scan default text).isEmpty, (scan default text).length⟩ := by
    simp only [replacedBy, hpieces, filled_reread, String.ofList_toList]
  refine ⟨hasked, ?_⟩
  rw [replaceEquations_eq_map, hasked, List.mapM_nil, map_pure, hreplaced]
  rfl

/-- An equation, an escaped one and a blank one. -/
example : equationsEscaped .latex "a stem:[x] \\stem:[y] stem:[ ]"
    = "a \\stem:[x] \\\\stem:[y] \\stem:[ ]" := by
  decide +kernel

end DocumentMath.Inline
