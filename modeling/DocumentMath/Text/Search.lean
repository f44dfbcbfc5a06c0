/-!
# Looking for one text inside another

Three operations on texts as lists of characters: whether one text occurs in another, taking a text
off the front of another, and replacing every occurrence of a text, from left to right and without
looking again at what was put in.

A replacement that has found an occurrence has to pass over the rest of it. It does so by counting
the characters still to be passed over, so that the recursion is on the text itself;
`replaceFrom_eq_drop` says that the count is the same as dropping that many characters.
-/

namespace DocumentMath.Text

/-- Whether `needle` occurs somewhere in the text. -/
def occursIn (needle : List Char) : List Char → Bool
  | [] => needle.isEmpty
  | c :: cs => needle.isPrefixOf (c :: cs) || occursIn needle cs

/-- What is left of the text after `lead`, if it starts with `lead`. -/
def after? : (lead : List Char) → List Char → Option (List Char)
  | [], cs => some cs
  | _ :: _, [] => none
  | l :: lead, c :: cs => if l = c then after? lead cs else none

theorem after?_eq_some_iff {lead cs rest : List Char} :
    after? lead cs = some rest ↔ cs = lead ++ rest := by
  induction lead generalizing cs with
  | nil => simp [after?]
  | cons l lead ih =>
    cases cs with
    | nil => simp [after?]
    | cons c cs =>
      by_cases h : l = c
      · simp [after?, h, ih]
      · have h' : ¬c = l := fun e => h e.symm
        simp [after?, h, h']

/-- Replaces every occurrence of `needle`, once `skip` more characters have been passed over. -/
def replaceFrom (needle replacement : List Char) : (skip : Nat) → List Char → List Char
  | _, [] => []
  | skip + 1, _ :: cs => replaceFrom needle replacement skip cs
  | 0, c :: cs =>
    if needle.isPrefixOf (c :: cs) then
      replacement ++ replaceFrom needle replacement (needle.length - 1) cs
    else
      c :: replaceFrom needle replacement 0 cs

/-- Replaces every occurrence of `needle`, from left to right. -/
def replaceAll (needle replacement text : List Char) : List Char :=
  replaceFrom needle replacement 0 text

theorem replaceFrom_eq_drop (needle replacement : List Char) (skip : Nat) (text : List Char) :
    replaceFrom needle replacement skip text
      = replaceFrom needle replacement 0 (text.drop skip) := by
  induction skip generalizing text with
  | zero => rfl
  | succ skip ih =>
    cases text with
    | nil => rfl
    | cons c cs => simpa [replaceFrom] using ih cs

/-- `replaceAll` on strings. -/
def replaced (needle replacement text : String) : String :=
  String.ofList (replaceAll needle.toList replacement.toList text.toList)

/-- The parts of the text between the occurrences of `separator`, empty ones included. -/
def partsBetween (separator : Char) : List Char → List (List Char)
  | [] => [[]]
  | c :: cs =>
    if c = separator then [] :: partsBetween separator cs
    else (partsBetween separator cs).modifyHead (c :: ·)

theorem partsBetween_eq_splitOn (separator : Char) (cs : List Char) :
    partsBetween separator cs = cs.splitOn separator := by
  induction cs with
  | nil => rfl
  | cons c cs ih => simp only [partsBetween, List.splitOn_cons_eq_if_modifyHead, ih, beq_iff_eq]

end DocumentMath.Text
