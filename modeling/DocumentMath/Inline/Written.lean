import DocumentMath.Dialect
import DocumentMath.Text.Search

/-!
# Inline equations as they are written

An inline equation is written as a name, a colon, an optional list of substitutions and a payload
in square brackets, as in `stem:c,a[x^2]`. A backslash in front of the name *escapes* it. The
payload has at least one character; it ends in front of the first `]` that has a character before
it other than a backslash. A payload may hold line ends and further opening brackets.

`writtenAt?` reads an occurrence at the start of a text, and `pieces` cuts a whole text into plain
characters and occurrences, from left to right. Cutting loses nothing: `source_pieces` says that the
sources of the pieces, put together, are the text again.
-/

namespace DocumentMath.Inline

/-- An inline equation as it is written. -/
structure Written where
  /-- Whether a backslash stands in front of the name. -/
  escaped : Bool
  /-- The name. -/
  name : MacroName
  /-- The list of substitutions, which may be empty. -/
  subs : List Char
  /-- What stands between the brackets. -/
  payload : List Char
  deriving DecidableEq, Repr

namespace Written

/-- The characters of the occurrence without the backslash that escapes it. -/
def body (w : Written) : List Char :=
  w.name.chars ++ ':' :: (w.subs ++ '[' :: (w.payload ++ [']']))

/-- The characters of the occurrence. -/
def source (w : Written) : List Char :=
  if w.escaped then '\\' :: w.body else w.body

theorem length_body_pos (w : Written) : 0 < w.body.length := by
  rw [body, List.length_append, List.length_cons]
  omega

theorem length_source_pos (w : Written) : 0 < w.source.length := by
  cases h : w.escaped <;> simp [source, h, length_body_pos]

end Written

/-! ### Reading one occurrence -/

/-- Whether a character may stand in a list of substitutions. -/
def isSubsChar (c : Char) : Bool :=
  ('a' ≤ c && c ≤ 'z') || c == ','

/-- The rest of a payload whose last character so far is `last`. -/
def payloadAfter? (last : Char) : List Char → Option (List Char)
  | [] => none
  | c :: cs => if c = ']' ∧ last ≠ '\\' then some [] else (payloadAfter? c cs).map (c :: ·)

/-- The shortest payload at the start of the text, if a bracket closes one. -/
def payloadAt? : List Char → Option (List Char)
  | [] => none
  | c :: cs => (payloadAfter? c cs).map (c :: ·)

/-- The occurrence under `name` whose substitutions and payload the text starts with. -/
def argumentsAt? (name : MacroName) (cs : List Char) : Option Written :=
  match cs.dropWhile isSubsChar with
  | '[' :: rest => (payloadAt? rest).map (⟨false, name, cs.takeWhile isSubsChar, ·⟩)
  | _ => none

/-- The occurrence without a backslash at the start of the text. -/
def plainAt? (cs : List Char) : Option Written :=
  MacroName.all.findSome? fun name ↦
    (Text.after? (name.chars ++ [':']) cs).bind (argumentsAt? name)

/-- The occurrence at the start of the text. -/
def writtenAt? : List Char → Option Written
  | '\\' :: cs => (plainAt? cs).map ({ · with escaped := true })
  | cs => plainAt? cs

/-! ### Cutting a text -/

/-- A piece of a text: a character that belongs to no occurrence, or an occurrence. -/
inductive Piece where
  | plain (c : Char)
  | equation (w : Written)
  deriving DecidableEq, Repr

/-- The characters of a piece. -/
def Piece.source : Piece → List Char
  | plain c => [c]
  | equation w => w.source

/-- The pieces of the text after the next `skip` characters. -/
def piecesFrom : (skip : Nat) → List Char → List Piece
  | _, [] => []
  | skip + 1, _ :: cs => piecesFrom skip cs
  | 0, c :: cs =>
    match writtenAt? (c :: cs) with
    | some w => .equation w :: piecesFrom (w.source.length - 1) cs
    | none => .plain c :: piecesFrom 0 cs

/-- The pieces of a text: its leftmost occurrences that do not overlap, and the characters between
them. -/
def pieces (cs : List Char) : List Piece :=
  piecesFrom 0 cs

/-! ### Nothing is lost -/

theorem payloadAfter?_eq {last : Char} {cs p : List Char} (h : payloadAfter? last cs = some p) :
    ∃ rest, cs = p ++ ']' :: rest := by
  induction cs generalizing last p with
  | nil => simp [payloadAfter?] at h
  | cons c cs ih =>
    simp only [payloadAfter?] at h
    split at h
    · next hc => exact ⟨cs, by simp_all⟩
    · obtain ⟨q, hq, rfl⟩ := Option.map_eq_some_iff.mp h
      obtain ⟨rest, rfl⟩ := ih hq
      exact ⟨rest, rfl⟩

theorem payloadAt?_eq {cs p : List Char} (h : payloadAt? cs = some p) :
    ∃ rest, cs = p ++ ']' :: rest := by
  cases cs with
  | nil => simp [payloadAt?] at h
  | cons c cs =>
    obtain ⟨q, hq, rfl⟩ := Option.map_eq_some_iff.mp h
    obtain ⟨rest, rfl⟩ := payloadAfter?_eq hq
    exact ⟨rest, rfl⟩

theorem argumentsAt?_eq {name : MacroName} {cs : List Char} {w : Written}
    (h : argumentsAt? name cs = some w) :
    w.escaped = false ∧ ∃ rest, name.chars ++ ':' :: cs = w.body ++ rest := by
  simp only [argumentsAt?] at h
  split at h
  · next rest hrest =>
    obtain ⟨p, hp, rfl⟩ := Option.map_eq_some_iff.mp h
    obtain ⟨tail, rfl⟩ := payloadAt?_eq hp
    refine ⟨rfl, tail, ?_⟩
    have hcs : cs = cs.takeWhile isSubsChar ++ '[' :: (p ++ ']' :: tail) := by
      rw [← hrest, List.takeWhile_append_dropWhile]
    conv => lhs; rw [hcs]
    simp [Written.body]
  · simp at h

theorem plainAt?_eq {cs : List Char} {w : Written} (h : plainAt? cs = some w) :
    w.escaped = false ∧ ∃ rest, cs = w.body ++ rest := by
  obtain ⟨name, -, hname⟩ := List.exists_of_findSome?_eq_some h
  obtain ⟨rest, hrest, hw⟩ := Option.bind_eq_some_iff.mp hname
  obtain ⟨hesc, tail, htail⟩ := argumentsAt?_eq hw
  refine ⟨hesc, tail, ?_⟩
  rw [← htail, Text.after?_eq_some_iff.mp hrest]
  simp

theorem writtenAt?_eq {cs : List Char} {w : Written} (h : writtenAt? cs = some w) :
    ∃ rest, cs = w.source ++ rest := by
  unfold writtenAt? at h
  split at h
  · next cs =>
    obtain ⟨v, hv, rfl⟩ := Option.map_eq_some_iff.mp h
    obtain ⟨-, rest, rfl⟩ := plainAt?_eq hv
    exact ⟨rest, rfl⟩
  · obtain ⟨hesc, rest, rfl⟩ := plainAt?_eq h
    exact ⟨rest, by simp [Written.source, hesc]⟩

theorem piecesFrom_eq_drop (skip : Nat) (cs : List Char) :
    piecesFrom skip cs = piecesFrom 0 (cs.drop skip) := by
  induction skip generalizing cs with
  | zero => rfl
  | succ skip ih =>
    cases cs with
    | nil => rfl
    | cons c cs => simpa [piecesFrom] using ih cs

/-- An occurrence at the start of a text is its first piece. -/
theorem pieces_append {w : Written} {rest : List Char}
    (h : writtenAt? (w.source ++ rest) = some w) :
    pieces (w.source ++ rest) = .equation w :: pieces rest := by
  obtain ⟨c, cs, hcs⟩ : ∃ c cs, w.source = c :: cs :=
    List.exists_cons_of_length_pos w.length_source_pos
  rw [hcs] at h ⊢
  simp only [pieces, List.cons_append, piecesFrom] at h ⊢
  rw [h]
  simp only [hcs, List.length_cons, Nat.add_sub_cancel]
  rw [piecesFrom_eq_drop, List.drop_left]

/-- A character at which no occurrence starts is a piece of its own. -/
theorem pieces_cons_of_none {c : Char} {cs : List Char} (h : writtenAt? (c :: cs) = none) :
    pieces (c :: cs) = .plain c :: pieces cs := by
  simp [pieces, piecesFrom, h]

/-- Put together, the sources of the pieces are the text. -/
theorem source_pieces (cs : List Char) : (pieces cs).flatMap Piece.source = cs := by
  induction hn : cs.length using Nat.strongRecOn generalizing cs with
  | ind n ih =>
    cases cs with
    | nil => rfl
    | cons c cs =>
      cases h : writtenAt? (c :: cs) with
      | none =>
        rw [pieces_cons_of_none h]
        simp [Piece.source, ih cs.length (by simp_all; omega) cs rfl]
      | some w =>
        obtain ⟨rest, hrest⟩ := writtenAt?_eq h
        rw [hrest] at h ⊢
        have hlen := congrArg List.length hrest
        have hpos := w.length_source_pos
        rw [pieces_append h]
        simp only [List.flatMap_cons, Piece.source]
        rw [ih rest.length (by simp at hlen hn; omega) rest rfl]

end DocumentMath.Inline
