import DocumentMath.Inline.Replaced
import DocumentMath.Proofs.Fallible
import DocumentMath.Proofs.Inline.Leftmost

/-!
# Replacing agrees with searching

What replacing the equations of a text does is told here by the occurrences that `scan` lists and by
their positions. The caller is asked about the occurrences that are neither escaped nor blank
(`asked`), one after the other. From the answers `placed` tells what stands in the place of each
occurrence, and `spliced` puts that between the parts of the text that no occurrence covers.

`replaceEquations_eq_map` says so for every kind of effect: the effects are those of asking, and the
new text is a function of the answers. For callers that may fail, `replaceEquations_cases` tells the
two ways it can end. As long as nothing that is put in begins like a name, a text in which anything
is new is another text (`text_replacedBy_ne_of_modified`).
-/

namespace DocumentMath.Inline

open Text (slice)

/-! ### The rule -/

/-- Whether the caller is asked what to put in the place of an occurrence. -/
def Occurrence.isAsked (o : Occurrence) : Bool :=
  !o.escaped && !o.isBlank

/-- The occurrences of a text that the caller is asked about. -/
def asked (default : Dialect) (text : String) : List Occurrence :=
  (scan default text).filter Occurrence.isAsked

/-- What stands in the place of an occurrence, by the answer to it if it was asked about. An escaped
occurrence loses its backslash, which is one byte; a blank one, and one with no answer, stays as it
is written. -/
def placedAt (text : String) (o : Occurrence) (answer : Option String) : String :=
  if o.isAsked then answer.getD (slice text o.start o.stop)
  else if o.escaped then slice text (o.start + 1) o.stop
  else slice text o.start o.stop

/-- The answers that are left after an occurrence. -/
def answersAfter (o : Occurrence) (answers : List (Option String)) : List (Option String) :=
  if o.isAsked then answers.tail else answers

/-- What stands in the place of each occurrence of a text, by the answers to those asked about. -/
def placed (text : String) : List Occurrence → (answers : List (Option String)) → List String
  | [], _ => []
  | o :: os, answers =>
    placedAt text o answers.head?.join :: placed text os (answersAfter o answers)

/-- The text from a position on, with other texts in the place of its occurrences. -/
def spliced (text : String) : (position : Nat) → List (Occurrence × String) → String
  | position, [] => slice text position text.utf8ByteSize
  | position, (o, new) :: rest => slice text position o.start ++ new ++ spliced text o.stop rest

/-- The text in which the occurrences asked about have been replaced by the answers. -/
def answered (default : Dialect) (text : String) (answers : List (Option String)) : Replaced where
  text := spliced text 0 ((scan default text).zip (placed text (scan default text) answers))
  modified := (scan default text).any (·.escaped) || answers.any (·.isSome)
  escaped := (scan default text).countP (·.escaped)

/-! ### Pieces and answers -/

/-- The new text of an occurrence, unless it stays as it is written. -/
def newAt? (w : Written) (o : Occurrence) (answer : Option String) : Option (List Char) :=
  if w.escaped then some w.body else if o.isAsked then answer.map String.toList else none

/-- The new text of pieces, whether there is anything new, and how many backslashes are lost. -/
def filled (default : Dialect) : (offset : Nat) → List Piece → List (Option String) →
    List Char × Bool × Nat
  | _, [], _ => ([], false, 0)
  | offset, .plain c :: ps, answers =>
    let (text, modified, escaped) := filled default (offset + c.utf8Size) ps answers
    (c :: text, modified, escaped)
  | offset, .equation w :: ps, answers =>
    let o := w.occurrence default offset
    let new? := newAt? w o answers.head?.join
    let (text, modified, escaped) :=
      filled default (offset + Text.utf8Length w.source) ps (answersAfter o answers)
    (new?.getD w.source ++ text, new?.isSome || modified, (if w.escaped then 1 else 0) + escaped)

theorem isAsked_occurrence (default : Dialect) (offset : Nat) (w : Written) :
    (w.occurrence default offset).isAsked
      = (!w.escaped && !(w.occurrence default offset).isBlank) := rfl

theorem filled_map_plain (default : Dialect) (offset : Nat) (cs : List Char)
    (answers : List (Option String)) :
    filled default offset (cs.map .plain) answers = (cs, false, 0) := by
  induction cs generalizing offset with
  | nil => rfl
  | cons c cs ih => rw [List.map_cons, filled, ih]

/-- The text in which the equations among its pieces have been replaced by the answers. -/
def replacedBy (default : Dialect) (text : String) (answers : List (Option String)) : Replaced :=
  let (cs, modified, escaped) := filled default 0 (pieces text.toList) answers
  ⟨String.ofList cs, modified, escaped⟩

/-! ### Effects -/

section Monad

variable {m : Type → Type} [Monad m] [LawfulMonad m]

/-- The effects of replacing are those of asking, in order, and nothing else. -/
theorem replacePieces_eq_map (default : Dialect) (replace : Occurrence → m (Option String))
    (offset : Nat) (ps : List Piece) :
    replacePieces default replace offset ps
      = filled default offset ps <$>
        ((occurrencesOf default offset ps).filter Occurrence.isAsked).mapM replace := by
  induction ps generalizing offset with
  | nil => simp [replacePieces, occurrencesOf, filled]
  | cons piece ps ih =>
    cases piece with
    | plain c => simp [replacePieces, occurrencesOf, filled, ih]
    | equation w =>
      simp only [replacePieces, occurrencesOf, replacement?, ih, List.filter_cons]
      cases hesc : w.escaped with
      | true => simp [filled, newAt?, answersAfter, isAsked_occurrence, hesc]
      | false =>
        cases hblank : (w.occurrence default offset).isBlank with
        | true => simp [filled, newAt?, answersAfter, isAsked_occurrence, hesc, hblank]
        | false => simp [filled, newAt?, answersAfter, isAsked_occurrence, hesc, hblank]

/-- Replacing the equations of a text is asking about them and then putting in the answers; the
cheap test takes nothing away. -/
theorem replaceEquations_eq_map (default : Dialect) (text : String)
    (replace : Occurrence → m (Option String)) :
    replaceEquations default text replace
      = replacedBy default text <$> (asked default text).mapM replace := by
  rw [asked, scan_eq_occurrences, occurrences, replaceEquations]
  split
  · rw [replacePieces_eq_map, bind_map_left, ← bind_pure_comp]
    rfl
  · next hmay =>
    rw [pieces_of_not_mayContain hmay, occurrencesOf_map_plain]
    simp [replacedBy, pieces_of_not_mayContain hmay, filled_map_plain]

end Monad

/-! ### The new text -/

section Slices

variable {text : String} {before rest : List Char} {w : Written} (default : Dialect)

theorem slice_source (h : text.toList = before ++ w.source ++ rest) :
    slice text (w.occurrence default (Text.utf8Length before)).start
      (w.occurrence default (Text.utf8Length before)).stop = String.ofList w.source := by
  rw [← Text.slice_eq h, Text.utf8Length_append]
  rfl

theorem slice_body (hesc : w.escaped = true) (h : text.toList = before ++ w.source ++ rest) :
    slice text ((w.occurrence default (Text.utf8Length before)).start + 1)
      (w.occurrence default (Text.utf8Length before)).stop = String.ofList w.body := by
  have hsource : w.source = ['\\'] ++ w.body := by simp [Written.source, hesc]
  rw [hsource, ← List.append_assoc] at h
  have hbackslash : Text.utf8Length ['\\'] = 1 := rfl
  rw [← Text.slice_eq h]
  simp only [Written.occurrence, hsource, Text.utf8Length_append, hbackslash, Nat.add_assoc]

theorem placedAt_occurrence (h : text.toList = before ++ w.source ++ rest)
    (answer : Option String) :
    placedAt text (w.occurrence default (Text.utf8Length before)) answer
      = String.ofList ((newAt? w (w.occurrence default (Text.utf8Length before)) answer).getD
          w.source) := by
  cases hesc : w.escaped with
  | true =>
    have hasked := isAsked_occurrence default (Text.utf8Length before) w
    have hescaped : (w.occurrence default (Text.utf8Length before)).escaped = true := hesc
    simp only [placedAt, newAt?, hasked, hesc, hescaped, slice_body default hesc h]
    simp
  | false =>
    have hescaped : (w.occurrence default (Text.utf8Length before)).escaped = false := hesc
    simp only [placedAt, newAt?, hesc, hescaped, slice_source default h]
    cases (w.occurrence default (Text.utf8Length before)).isAsked <;> cases answer <;> simp

end Slices

/-- The new text of pieces is spliced at the positions of their occurrences. -/
theorem spliced_placed (default : Dialect) {text : String} {before gap : List Char}
    {ps : List Piece} (answers : List (Option String))
    (h : text.toList = before ++ gap ++ ps.flatMap Piece.source) :
    spliced text (Text.utf8Length before)
        ((occurrencesOf default (Text.utf8Length (before ++ gap)) ps).zip
          (placed text (occurrencesOf default (Text.utf8Length (before ++ gap)) ps) answers))
      = String.ofList
        (gap ++ (filled default (Text.utf8Length (before ++ gap)) ps answers).1) := by
  -- the gap grows until there is an occurrence, and is empty again behind it
  induction ps generalizing before gap answers with
  | nil =>
    have hsize : text.utf8ByteSize = Text.utf8Length (before ++ gap) := by
      rw [← Text.utf8ByteSize_ofList, ← String.ofList_toList (s := text), h, List.flatMap_nil,
        List.append_nil]
    simp only [occurrencesOf, placed, List.zip_nil_left, spliced, filled, List.append_nil]
    rw [hsize, Text.slice_eq h]
  | cons piece ps ih =>
    cases piece with
    | plain c =>
      have h' : text.toList = before ++ (gap ++ [c]) ++ ps.flatMap Piece.source := by
        rw [h]
        simp [Piece.source]
      have hoffset : Text.utf8Length (before ++ gap) + c.utf8Size
          = Text.utf8Length (before ++ (gap ++ [c])) := by
        simp [Nat.add_assoc]
      simp only [occurrencesOf, filled, hoffset, ih answers h', List.append_assoc,
        List.singleton_append]
    | equation w =>
      have h' : text.toList = before ++ gap ++ w.source ++ ps.flatMap Piece.source := by
        rw [h]
        simp [Piece.source]
      have hgap : slice text (Text.utf8Length before)
          (w.occurrence default (Text.utf8Length (before ++ gap))).start = String.ofList gap :=
        Text.slice_eq (by rw [h', List.append_assoc])
      have hstop : (w.occurrence default (Text.utf8Length (before ++ gap))).stop
          = Text.utf8Length (before ++ gap ++ w.source) :=
        (Text.utf8Length_append _ _).symm
      have h'' : text.toList = before ++ gap ++ w.source ++ [] ++ ps.flatMap Piece.source := by
        rw [h', List.append_nil]
      have hrest := fun answers ↦ ih answers h''
      simp only [List.append_nil, List.nil_append] at hrest
      simp only [occurrencesOf, filled, placed, List.zip_cons_cons, spliced, hgap, hstop,
        placedAt_occurrence default h', ← Text.utf8Length_append, hrest, String.ofList_append,
        String.append_assoc]

/-! ### The first difference -/

/-- A text that begins with a character with which no name begins. -/
def UnlikeNames (cs : List Char) : Prop :=
  ∃ c, cs.head? = some c ∧ ∀ name : MacroName, name.chars.head? ≠ some c

theorem Written.head?_body (w : Written) (rest : List Char) :
    (w.body ++ rest).head? = w.name.chars.head? := by
  rw [body]
  cases w.name <;> rfl

/-- What is put in the place of an occurrence does not begin as the occurrence does. -/
theorem newAt?_append_ne {w : Written} {o : Occurrence} {answer : Option String} {cs : List Char}
    (hanswer : ∀ new ∈ answer, UnlikeNames new.toList) (h : newAt? w o answer = some cs)
    (rest rest' : List Char) : cs ++ rest ≠ w.source ++ rest' := by
  intro heq
  have hhead := congrArg List.head? heq
  rw [newAt?] at h
  rw [Written.source] at hhead
  split at h
  · next hescaped =>
    cases h
    rw [if_pos hescaped, Written.head?_body, List.cons_append, List.head?_cons] at hhead
    revert hhead
    cases w.name <;> decide
  · next hescaped =>
    rw [if_neg hescaped, Written.head?_body] at hhead
    split at h
    · obtain ⟨new, hnew, rfl⟩ := Option.map_eq_some_iff.mp h
      obtain ⟨c, hc, hunlike⟩ := hanswer new hnew
      rw [List.head?_append, hc, Option.some_or] at hhead
      exact hunlike w.name hhead.symm
    · cases h

/-- Where something is new, pieces are not as they are written. -/
theorem filled_ne_of_modified (default : Dialect) (offset : Nat) (ps : List Piece)
    (answers : List (Option String))
    (hanswers : ∀ new, some new ∈ answers → UnlikeNames new.toList)
    (h : (filled default offset ps answers).2.1 = true) :
    (filled default offset ps answers).1 ≠ ps.flatMap Piece.source := by
  induction ps generalizing offset answers with
  | nil => cases h
  | cons piece ps ih =>
    cases piece with
    | plain c =>
      simp only [filled] at h ⊢
      exact fun heq ↦ ih _ _ hanswers h (List.cons.inj heq).2
    | equation w =>
      simp only [filled, List.flatMap_cons, Piece.source] at h ⊢
      cases hnew : newAt? w (w.occurrence default offset) answers.head?.join with
      | some cs =>
        refine newAt?_append_ne (fun new hnew ↦ hanswers new ?_) hnew _ _
        rw [Option.mem_def, Option.join_eq_some_iff] at hnew
        exact List.mem_of_head? hnew
      | none =>
        -- this occurrence stays, so what is new is behind it
        rw [hnew, Option.isSome_none, Bool.false_or] at h
        refine fun heq ↦ ih _ _ (fun new hmem ↦ hanswers new ?_) h (List.append_cancel_left heq)
        rw [answersAfter] at hmem
        split at hmem
        · exact List.mem_of_mem_tail hmem
        · exact hmem

theorem text_replacedBy_ne_of_modified {default : Dialect} {text : String}
    {answers : List (Option String)}
    (hanswers : ∀ new, some new ∈ answers → UnlikeNames new.toList)
    (h : (replacedBy default text answers).modified = true) :
    (replacedBy default text answers).text ≠ text := by
  intro heq
  refine filled_ne_of_modified default 0 (pieces text.toList) answers hanswers h ?_
  rw [source_pieces, ← String.toList_ofList (l := (filled default 0 _ answers).1)]
  exact congrArg String.toList heq

/-! ### What is counted -/

theorem filled_escaped (default : Dialect) (offset : Nat) (ps : List Piece)
    (answers : List (Option String)) :
    (filled default offset ps answers).2.2
      = (occurrencesOf default offset ps).countP (·.escaped) := by
  induction ps generalizing offset answers with
  | nil => rfl
  | cons piece ps ih =>
    cases piece with
    | plain c => exact ih _ _
    | equation w =>
      simp only [filled, occurrencesOf, List.countP_cons, ih, Nat.add_comm]
      rfl

theorem escaped_replacedBy (default : Dialect) (text : String) (answers : List (Option String)) :
    (replacedBy default text answers).escaped = (scan default text).countP (·.escaped) := by
  rw [scan_eq_occurrences]
  exact filled_escaped default 0 (pieces text.toList) answers

/-- Something is new exactly if an occurrence was escaped or an answer given. -/
theorem filled_modified (default : Dialect) (offset : Nat) (ps : List Piece)
    (answers : List (Option String))
    (h : answers.length = ((occurrencesOf default offset ps).filter Occurrence.isAsked).length) :
    (filled default offset ps answers).2.1
      = ((occurrencesOf default offset ps).any (·.escaped) || answers.any (·.isSome)) := by
  induction ps generalizing offset answers with
  | nil =>
    rw [List.eq_nil_of_length_eq_zero h]
    rfl
  | cons piece ps ih =>
    cases piece with
    | plain c => exact ih _ _ h
    | equation w =>
      simp only [occurrencesOf, List.filter_cons] at h
      simp only [filled, occurrencesOf, List.any_cons]
      have hescaped : (w.occurrence default offset).escaped = w.escaped := rfl
      have hasked := isAsked_occurrence default offset w
      cases hesc : w.escaped with
      | true => simp [newAt?, hesc, hescaped]
      | false =>
        cases hblank : (w.occurrence default offset).isBlank with
        | true =>
          simp only [hasked, hesc, hblank] at h
          simp [newAt?, answersAfter, hasked, hesc, hescaped, hblank, ih _ _ h]
        | false =>
          simp only [hasked, hesc, hblank] at h
          obtain ⟨answer, answers, rfl⟩ := List.exists_cons_of_length_eq_add_one h
          have hlen := Nat.succ.inj h
          simp [newAt?, answersAfter, hasked, hesc, hescaped, hblank, ih _ _ hlen,
            Bool.or_left_comm]

/-- With nothing new, pieces are as they are written. -/
theorem filled_of_not_modified (default : Dialect) (offset : Nat) (ps : List Piece)
    (answers : List (Option String)) (h : (filled default offset ps answers).2.1 = false) :
    (filled default offset ps answers).1 = ps.flatMap Piece.source := by
  induction ps generalizing offset answers with
  | nil => rfl
  | cons piece ps ih =>
    cases piece with
    | plain c =>
      simp only [filled] at h ⊢
      rw [ih _ _ h]
      rfl
    | equation w =>
      simp only [filled, Bool.or_eq_false_iff, Option.isSome_eq_false_iff,
        Option.isNone_iff_eq_none] at h ⊢
      rw [ih _ _ h.2, h.1]
      rfl

/-- With an answer for each occurrence asked about, replacing is splicing. -/
theorem replacedBy_eq_answered (default : Dialect) (text : String)
    (answers : List (Option String)) (h : answers.length = (asked default text).length) :
    replacedBy default text answers = answered default text answers := by
  rw [asked, scan_eq_occurrences] at h
  have htext : text.toList = [] ++ [] ++ (pieces text.toList).flatMap Piece.source := by
    rw [source_pieces]
    rfl
  have hspliced := spliced_placed default answers htext
  have hescaped := filled_escaped default 0 (pieces text.toList) answers
  have hmodified := filled_modified default 0 (pieces text.toList) answers h
  rw [answered, scan_eq_occurrences]
  simp only [replacedBy, occurrences, hmodified, hescaped]
  rw [← List.nil_append (filled default 0 (pieces text.toList) answers).1]
  exact congrArg (Replaced.mk · _ _) hspliced.symm

theorem text_replacedBy_of_not_modified {default : Dialect} {text : String}
    {answers : List (Option String)} (h : (replacedBy default text answers).modified = false) :
    (replacedBy default text answers).text = text := by
  show String.ofList (filled default 0 (pieces text.toList) answers).1 = text
  rw [filled_of_not_modified default 0 _ answers h, source_pieces, String.ofList_toList]

/-- **Replacing agrees with searching.** The caller is asked about the occurrences that are neither
escaped nor blank, in order. Either all are answered, and the new text is the old one with the
answers spliced in; or one is the first to fail, and its error is returned with no other asked. -/
theorem replaceEquations_cases {σ ε : Type} (default : Dialect) (text : String)
    (replace : Occurrence → ExceptT ε (StateM σ) (Option String)) (s : σ) :
    (∃ answers t new, answers.length = (asked default text).length ∧
      ((asked default text).mapM replace).run.run s = (.ok answers, t) ∧
        (replaceEquations default text replace).run.run s = (.ok new, t) ∧
          new = answered default text answers ∧ (new.modified = false → new.text = text)) ∨
      ∃ done o later answers t e t', asked default text = done ++ o :: later ∧
        (done.mapM replace).run.run s = (.ok answers, t) ∧
          (replace o).run.run t = (.error e, t') ∧
            (replaceEquations default text replace).run.run s = (.error e, t') := by
  rw [replaceEquations_eq_map]
  rcases Fallible.mapM_cases replace (asked default text) s with
    ⟨answers, t, hlen, hok⟩ | ⟨done, o, later, answers, t, e, t', hsplit, hdone, ho, herror⟩
  · refine Or.inl ⟨answers, t, _, hlen, hok, Fallible.run_map_of_ok _ hok,
      replacedBy_eq_answered default text answers hlen, text_replacedBy_of_not_modified⟩
  · exact Or.inr ⟨done, o, later, answers, t, e, t', hsplit, hdone, ho,
      Fallible.run_map_of_error _ herror⟩

end DocumentMath.Inline
