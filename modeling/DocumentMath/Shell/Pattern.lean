/-!
# Patterns

In a pattern an asterisk stands for any text, a question mark for any character, and a set in
brackets for one of its members or, behind an exclamation mark, for any other character. A member is
a character, a range of characters or a class. Quoted characters stand for themselves, as does a
character behind a backslash.
-/

namespace DocumentMath.Shell

/-- A character of an expanded word, and whether it is quoted. -/
abbrev Mark := Char × Bool

/-- Marks that are all quoted, or all not. -/
def marksOf (quoted : Bool) (cs : List Char) : List Mark :=
  cs.map (·, quoted)

/-! ### Sets -/

/-- A member of a set. -/
inductive SetMember where
  | range (first last : Char)
  | ofClass (name : String)
  deriving DecidableEq, Repr

namespace SetMember

/-- Whether a character is shown as a sign. -/
def isSign (c : Char) : Bool :=
  '!' ≤ c && c ≤ '~' && !c.isAlphanum

/-- The classes of characters. -/
def classes : List (String × (Char → Bool)) :=
  [("alnum", Char.isAlphanum), ("alpha", Char.isAlpha), ("blank", fun c ↦ c == ' ' || c == '\t'),
    ("cntrl", fun c ↦ c < ' ' || c == '\x7f'), ("digit", Char.isDigit),
    ("graph", fun c ↦ '!' ≤ c && c ≤ '~'), ("lower", Char.isLower),
    ("print", fun c ↦ ' ' ≤ c && c ≤ '~'), ("punct", isSign),
    ("space", fun c ↦ c == ' ' || ('\t' ≤ c && c ≤ '\r')), ("upper", Char.isUpper),
    ("xdigit", fun c ↦ c.isDigit || ('a' ≤ c.toLower && c.toLower ≤ 'f'))]

/-- Whether a character is meant. -/
def holds (c : Char) : SetMember → Bool
  | range first last => first ≤ c && c ≤ last
  | ofClass name => ((classes.lookup name).map (· c)).getD false

/-- The class whose bracket stands in front of the marks, and how many marks belong to it. -/
def classAt? (ms : List Mark) : Option (SetMember × Nat) :=
  classes.findSome? fun (name, _) ↦
    let source := ':' :: name.toList ++ [':', ']']
    if (marksOf false source).isPrefixOf ms then some (ofClass name, source.length) else none

end SetMember

/-- A set that has been read. -/
structure ReadSet where
  members : List SetMember
  /-- How many marks it takes, with the bracket that closes it. -/
  length : Nat

/-- The members of a set, once `skip` more marks have been passed over, up to a bracket that is not
the first mark. -/
def setFrom : (first : Bool) → (skip : Nat) → List Mark → Option ReadSet
  | _, _, [] => none
  | _, skip + 1, _ :: ms => (setFrom false skip ms).map fun r ↦ { r with length := r.length + 1 }
  | first, 0, m :: ms =>
    if m = (']', false) ∧ !first then some ⟨[], 1⟩
    else
      let isClass := m == ('[', false)
      let (member, more) : SetMember × Nat :=
        match if isClass then SetMember.classAt? ms else none, ms with
        | some (member, length), _ => (member, length)
        | none, ('-', false) :: last :: _ =>
          if last = (']', false) then (.range m.1 m.1, 0) else (.range m.1 last.1, 2)
        | none, _ => (.range m.1 m.1, 0)
      (setFrom false more ms).map fun r ↦ ⟨member :: r.members, r.length + 1⟩

/-! ### Patterns -/

/-- What a part of a pattern stands for. -/
inductive PatternPart where
  | anyText
  | anyChar
  | char (c : Char)
  /-- A member of a set, or anything that is none. -/
  | set (negated : Bool) (members : List SetMember)
  deriving DecidableEq, Repr

namespace PatternPart

/-- The set whose bracket stands in front of the marks, and how many marks belong to it. -/
def setAt? (ms : List Mark) : Option (PatternPart × Nat) :=
  let negated := ms.head? == some ('!', false)
  let start := if negated then 1 else 0
  (setFrom true 0 (ms.drop start)).map fun r ↦ (set negated r.members, start + r.length)

/-- The pattern that marks make, once `skip` more marks have been passed over. -/
def ofMarks : (skip : Nat) → List Mark → List PatternPart
  | _, [] => []
  | skip + 1, _ :: ms => ofMarks skip ms
  | 0, ('*', false) :: ms => anyText :: ofMarks 0 ms
  | 0, ('?', false) :: ms => anyChar :: ofMarks 0 ms
  | 0, (c, quoted) :: ms =>
    match if c = '[' ∧ !quoted then setAt? ms else none with
    | some (p, length) => p :: ofMarks length ms
    | none => char c :: ofMarks 0 ms

/-- Whether a pattern stands for a text. -/
def fits : List PatternPart → List Char → Bool
  | [], cs => cs.isEmpty
  | anyText :: ps, cs => (List.range (cs.length + 1)).any fun i ↦ fits ps (cs.drop i)
  | anyChar :: ps, _ :: cs => fits ps cs
  | char c :: ps, d :: cs => c == d && fits ps cs
  | set negated members :: ps, d :: cs => (members.any (·.holds d)) != negated && fits ps cs
  | _ :: _, [] => false

/-- Whether a part stands for more than one text. -/
def isWild : PatternPart → Bool
  | char _ => false
  | _ => true

end PatternPart

/-- The marks in which a backslash that is not quoted has quoted what is behind it. -/
def applyBackslashes : List Mark → List Mark
  | ('\\', false) :: (c, _) :: ms => (c, true) :: applyBackslashes ms
  | m :: ms => m :: applyBackslashes ms
  | [] => []

/-- The pattern that marks make. -/
def patternOf (ms : List Mark) : List PatternPart :=
  PatternPart.ofMarks 0 (applyBackslashes ms)

/-- Whether marks, as a pattern, stand for a text. -/
def patternMatches (ms : List Mark) (cs : List Char) : Bool :=
  PatternPart.fits (patternOf ms) cs

/-- A text without the shortest or the longest beginning or end that a pattern stands for. -/
def trimMatch (atEnd longest : Bool) (ms : List Mark) (cs : List Char) : List Char :=
  let pattern := patternOf ms
  let lengths := List.range (cs.length + 1)
  let part (n : Nat) : List Char := if atEnd then cs.drop (cs.length - n) else cs.take n
  let lengths := if longest then lengths.reverse else lengths
  match lengths.find? fun n ↦ PatternPart.fits pattern (part n) with
  | some n => if atEnd then cs.take (cs.length - n) else cs.drop n
  | none => cs

end DocumentMath.Shell
