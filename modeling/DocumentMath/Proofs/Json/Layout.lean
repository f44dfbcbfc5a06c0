import DocumentMath.Document.Encode
import DocumentMath.Proofs.Json.Scalars
import Mathlib.Data.List.Forall2

/-!
# Values are read back

Both layouts of a value differ only in the blanks between its parts, and these do not matter to the
reader. `Json.layOut` writes a value with any blanks in the places where a layout may have some, and
each layout is a case of it (`compact_eq_layOut`, `prettyAt_eq_layOut`). A value that is laid out in
this way is read back (`takes_value`), if it does not nest too deep.

`Takes` says of a text what reading a value needs: it begins with a character that starts a value,
and the reader takes just this text off the front of a longer one. Arrays and objects keep it:
whatever reads their members reads them (`listed_inBrackets`).
-/

namespace DocumentMath.Json

open Fallible (bind_of_ok)

/-! ### Blanks -/

/-- Whether a character is a blank of JSON. -/
def isBlank (c : Char) : Bool :=
  c == ' ' || c == '\n' || c == '\t' || c == '\r'

/-- A text of blanks. -/
def IsBlank (w : List Char) : Prop :=
  ∀ c ∈ w, isBlank c = true

theorem skipBlanks_append {w : List Char} (hw : IsBlank w) (cs : List Char) :
    skipBlanks (w ++ cs) = skipBlanks cs :=
  List.dropWhile_append_of_pos hw

theorem skipBlanks_cons {c : Char} (hc : isBlank c = false) (cs : List Char) :
    skipBlanks (c :: cs) = c :: cs :=
  List.dropWhile_cons_of_neg (by
    show ¬ isBlank c = true
    rw [hc]
    exact Bool.false_ne_true)

/-- A closing bracket. -/
def IsClosing (c : Char) : Prop :=
  c = ']' ∨ c = '\x7d'

theorem IsClosing.isBlank {c : Char} (h : IsClosing c) : isBlank c = false := by
  rcases h with rfl | rfl <;> decide

theorem endsNumber_comma (cs : List Char) : EndsNumber (',' :: cs) := by
  intro c hc
  obtain rfl := Option.some.inj hc
  decide

/-- A number ends at a blank and at a closing bracket. -/
theorem endsNumber_closing {w : List Char} (hw : IsBlank w) {closing : Char}
    (hclosing : IsClosing closing) (cs : List Char) : EndsNumber (w ++ closing :: cs) := by
  intro c hc
  cases w with
  | nil =>
    obtain rfl := Option.some.inj hc
    rcases hclosing with rfl | rfl <;> decide
  | cons d w =>
    obtain rfl := Option.some.inj hc
    have hd := hw d List.mem_cons_self
    simp only [Json.isBlank, Bool.or_eq_true, beq_iff_eq] at hd
    rcases hd with ((rfl | rfl) | rfl) | rfl <;> decide

/-! ### Readers -/

/-- A text that starts a value: neither a blank nor a closing bracket comes first. -/
def Starts (t : List Char) : Prop :=
  ∃ c cs, t = c :: cs ∧ isBlank c = false ∧ ¬ IsClosing c

section Readers

variable {α : Type}

/-- The reader takes this text off the front of a longer one, for this value. -/
structure Takes (r : Reader α) (t : List Char) (a : α) : Prop where
  starts : Starts t
  takes : ∀ cs, EndsNumber cs → r (t ++ cs) = .ok (a, cs)

/-- To the reader, blanks in front of a text do not matter. -/
def SkipsBlanks (r : Reader α) : Prop :=
  ∀ w cs, IsBlank w → r (w ++ cs) = r cs

end Readers

section More

variable {w t : List Char} {closing : Char}

theorem more_closing (hw : IsBlank w) (hclosing : IsClosing closing) (first : Bool)
    (cs : List Char) : more closing first (w ++ closing :: cs) = .ok (false, cs) := by
  rw [more, skipBlanks_append hw, skipBlanks_cons hclosing.isBlank]
  exact if_pos rfl

theorem more_first (hw : IsBlank w) (ht : Starts t) (hclosing : IsClosing closing)
    (cs : List Char) : more closing true (w ++ (t ++ cs)) = .ok (true, t ++ cs) := by
  obtain ⟨c, t, rfl, hblank, hc⟩ := ht
  have hne : c ≠ closing := fun heq ↦ hc (heq ▸ hclosing)
  rw [more, skipBlanks_append hw, List.cons_append, skipBlanks_cons hblank]
  exact if_neg hne

theorem more_comma (hw : IsBlank w) (ht : Starts t) (hclosing : IsClosing closing)
    (cs : List Char) : more closing false (',' :: (w ++ (t ++ cs))) = .ok (true, t ++ cs) := by
  obtain ⟨c, t, rfl, hblank, hc⟩ := ht
  have hne : c ≠ closing := fun heq ↦ hc (heq ▸ hclosing)
  have hcomma : ',' ≠ closing := by rcases hclosing with rfl | rfl <;> decide
  rw [more, skipBlanks_cons (by decide)]
  simp only [if_neg hcomma, skipBlanks_append hw, List.cons_append, skipBlanks_cons hblank,
    if_neg hne]
  rfl

end More

/-! ### Lists in brackets -/

section Lists

variable {α : Type}

/-- At most `steps` members of a list, up to its closing bracket: elements of an array or members of
an object. -/
def listed (closing : Char) (element : Reader α) : (steps : Nat) → (first : Bool) → Reader (List α)
  | 0, _, _ => .error .incomplete
  | steps + 1, first, cs => do
    let (another, cs) ← more closing first cs
    if another then
      let (a, cs) ← element cs
      let (as, cs) ← listed closing element steps false cs
      .ok (a :: as, cs)
    else .ok ([], cs)

theorem elements_eq_listed (element : Reader α) (steps : Nat) (first : Bool) (cs : List Char) :
    elements element steps first cs = listed ']' element steps first cs := by
  induction steps generalizing first cs with
  | zero => rfl
  | succ steps ih => simp only [elements, listed, ih]

/-- The reader for a member of an object, given the reader for its value. -/
def member (value : Reader α) : Reader (String × α) := fun cs ↦ do
  let (name, cs) ← memberName cs
  let (a, cs) ← value (← colon cs)
  .ok ((name, a), cs)

theorem members_eq_listed (value : Reader α) (steps : Nat) (first : Bool) (cs : List Char) :
    members value steps first cs = listed '\x7d' (member value) steps first cs := by
  induction steps generalizing first cs with
  | zero => rfl
  | succ steps ih =>
    rw [members, listed]
    cases more '\x7d' first cs with
    | error e => rfl
    | ok p =>
      rcases p with ⟨_ | _, cs⟩
      · rfl
      · show (memberName cs >>= _) = (member value cs >>= _)
        rw [member]
        simp only [bind_assoc, ih]
        rfl

/-- The texts of some members with a comma between them, each behind the blanks `inner`. -/
def separated (inner : List Char) : List (List Char) → List Char
  | [] => []
  | t :: ts => inner ++ t ++ ts.flatMap fun t ↦ ',' :: (inner ++ t)

theorem separated_singleton (inner t : List Char) : separated inner [t] = inner ++ t :=
  List.append_nil _

theorem separated_cons_cons (inner t u : List Char) (ts : List (List Char)) :
    separated inner (t :: u :: ts) = inner ++ t ++ ',' :: separated inner (u :: ts) := rfl

/-- The rest of a list behind its opening bracket, given the texts of its members: `outer` stands in
front of the closing bracket, if there are any. -/
def inBrackets (closing : Char) (inner outer : List Char) : List (List Char) → List Char
  | [] => [closing]
  | t :: ts => separated inner (t :: ts) ++ outer ++ [closing]

/-- What stands behind a member of a list and in front of `cs`: the members `ts` and the closing
bracket. -/
def behindMember (closing : Char) (inner outer : List Char) (ts : List (List Char))
    (cs : List Char) : List Char :=
  ts.flatMap (fun t ↦ ',' :: (inner ++ t)) ++ (outer ++ closing :: cs)

variable {closing : Char} {element : Reader α} {inner outer : List Char} {ts : List (List Char)}
  {as : List α}

theorem behindMember_cons (t cs : List Char) :
    behindMember closing inner outer (t :: ts) cs
      = ',' :: (inner ++ (t ++ behindMember closing inner outer ts cs)) := by
  simp only [behindMember, List.flatMap_cons, List.append_assoc, List.cons_append]

theorem inBrackets_cons (t cs : List Char) :
    inBrackets closing inner outer (t :: ts) ++ cs
      = inner ++ (t ++ behindMember closing inner outer ts cs) := by
  simp only [inBrackets, separated, behindMember, List.append_assoc, List.singleton_append]

theorem endsNumber_behindMember (hclosing : IsClosing closing) (houter : IsBlank outer)
    (cs : List Char) : EndsNumber (behindMember closing inner outer ts cs) := by
  cases ts with
  | nil => exact endsNumber_closing houter hclosing cs
  | cons t ts => exact endsNumber_comma _

/-- After a member, those behind it are read. -/
theorem listed_behindMember (hclosing : IsClosing closing) (hinner : IsBlank inner)
    (houter : IsBlank outer) (h : List.Forall₂ (Takes element) ts as) {steps : Nat}
    (hsteps : ts.length < steps) (cs : List Char) :
    listed closing element steps false (behindMember closing inner outer ts cs)
      = .ok (as, cs) := by
  induction h generalizing steps with
  | nil =>
    obtain ⟨steps, rfl⟩ := Nat.exists_eq_succ_of_ne_zero (Nat.ne_zero_of_lt hsteps)
    rw [behindMember, List.flatMap_nil, List.nil_append, listed,
      bind_of_ok (more_closing houter hclosing _ _)]
    rfl
  | @cons t a ts as ht _ ih =>
    obtain ⟨steps, rfl⟩ := Nat.exists_eq_succ_of_ne_zero (Nat.ne_zero_of_lt hsteps)
    have hrest := ih (Nat.lt_of_succ_lt_succ hsteps)
    rw [behindMember_cons, listed]
    simp only [bind_of_ok (more_comma hinner ht.starts hclosing _), if_true,
      bind_of_ok (ht.takes _ (endsNumber_behindMember hclosing houter cs)), bind_of_ok hrest]

/-- Whatever reads the members of a list reads the list. -/
theorem listed_inBrackets (hclosing : IsClosing closing) (hinner : IsBlank inner)
    (houter : IsBlank outer) (h : List.Forall₂ (Takes element) ts as) {steps : Nat}
    (hsteps : ts.length < steps) (cs : List Char) :
    listed closing element steps true (inBrackets closing inner outer ts ++ cs) = .ok (as, cs) := by
  obtain ⟨steps, rfl⟩ := Nat.exists_eq_succ_of_ne_zero (Nat.ne_zero_of_lt hsteps)
  cases h with
  | nil =>
    have hmore : more closing true (closing :: cs) = .ok (false, cs) :=
      more_closing (List.forall_mem_nil _) hclosing true cs
    rw [inBrackets, List.singleton_append, listed, bind_of_ok hmore]
    rfl
  | @cons t a ts as ht hts =>
    have hrest := listed_behindMember hclosing hinner houter hts (Nat.lt_of_succ_lt_succ hsteps) cs
    rw [inBrackets_cons, listed]
    simp only [bind_of_ok (more_first hinner ht.starts hclosing _), if_true,
      bind_of_ok (ht.takes _ (endsNumber_behindMember hclosing houter cs)), bind_of_ok hrest]

end Lists

/-! ### Layouts -/

/-- The blanks that a layout puts in front of what stands at a level of nesting, and behind the
colon of a member. -/
structure Spacing where
  line : (level : Nat) → List Char
  space : List Char
  isBlank_line : ∀ level, IsBlank (line level)
  isBlank_space : IsBlank space

/-- No blanks. -/
def Spacing.none : Spacing where
  line _ := []
  space := []
  isBlank_line _ := List.forall_mem_nil _
  isBlank_space := List.forall_mem_nil _

/-- A new line for each element and each member, and a blank behind each colon. -/
def Spacing.lines : Spacing where
  line := newLine
  space := [' ']
  isBlank_line level := by
    rw [newLine, IsBlank, List.forall_mem_cons]
    refine ⟨by decide, fun c hc ↦ ?_⟩
    rw [List.eq_of_mem_replicate hc]
    decide
  isBlank_space := by
    exact List.forall_mem_singleton.mpr (by decide)

/-- A member of an object, given the text of its value. -/
def memberText (s : Spacing) (name : String) (t : List Char) : List Char :=
  quote name ++ ':' :: (s.space ++ t)

theorem memberText_none (name : String) (t : List Char) :
    memberText .none name t = quote name ++ ':' :: t := rfl

theorem memberText_lines (name : String) (t : List Char) :
    memberText .lines name t = quote name ++ ':' :: ' ' :: t := rfl

mutual

/-- A value at a level of nesting, with the blanks of a layout. -/
def layOut (s : Spacing) (level : Nat) : Json → List Char
  | array elements =>
    '[' ::
      inBrackets ']' (s.line (level + 1)) (s.line level) (layOutElements s (level + 1) elements)
  | object members =>
    '\x7b' ::
      inBrackets '\x7d' (s.line (level + 1)) (s.line level) (layOutMembers s (level + 1) members)
  | j => j.scalar

/-- The texts of elements. -/
def layOutElements (s : Spacing) (level : Nat) : List Json → List (List Char)
  | [] => []
  | j :: js => j.layOut s level :: layOutElements s level js

/-- The texts of members. -/
def layOutMembers (s : Spacing) (level : Nat) : List (String × Json) → List (List Char)
  | [] => []
  | (name, j) :: ms => memberText s name (j.layOut s level) :: layOutMembers s level ms

end

theorem layOut_string (s : Spacing) (level : Nat) (text : String) :
    (string text).layOut s level = quote text := rfl

/-! #### The layout without blanks -/

mutual

theorem compact_eq_layOut : ∀ (j : Json) (level : Nat), j.compact = j.layOut .none level
  | array [], _ => rfl
  | array (j :: js), level => by
    rw [compact, layOut, compactElements_eq_layOut (j :: js) (level + 1), layOutElements,
      inBrackets]
    simp [Spacing.none]
  | object [], _ => rfl
  | object ((name, j) :: ms), level => by
    rw [compact, layOut, compactMembers_eq_layOut ((name, j) :: ms) (level + 1), layOutMembers,
      inBrackets]
    simp [Spacing.none]
  | null, _ => rfl
  | bool _, _ => rfl
  | natural _, _ => rfl
  | number, _ => rfl
  | string _, _ => rfl

theorem compactElements_eq_layOut : ∀ (js : List Json) (level : Nat),
    compactElements js = separated [] (layOutElements .none level js)
  | [], _ => rfl
  | [j], level => by
    rw [compactElements, compact_eq_layOut j level, layOutElements, layOutElements,
      separated_singleton, List.nil_append]
  | j :: j' :: js, level => by
    show j.compact ++ ',' :: compactElements (j' :: js) = _
    rw [compact_eq_layOut j level, compactElements_eq_layOut (j' :: js) level]
    rfl

theorem compactMembers_eq_layOut : ∀ (ms : List (String × Json)) (level : Nat),
    compactMembers ms = separated [] (layOutMembers .none level ms)
  | [], _ => rfl
  | [(name, j)], level => by
    rw [compactMembers, compact_eq_layOut j level, layOutMembers, layOutMembers,
      separated_singleton, List.nil_append]
    rfl
  | (name, j) :: (name', j') :: ms, level => by
    show quote name ++ ':' :: (j.compact ++ ',' :: compactMembers ((name', j') :: ms)) = _
    rw [compact_eq_layOut j level, compactMembers_eq_layOut ((name', j') :: ms) level,
      layOutMembers, layOutMembers, layOutMembers, separated_cons_cons, memberText_none name]
    simp only [List.nil_append, List.append_assoc, List.cons_append]

end

/-! #### The layout on lines -/

mutual

theorem prettyAt_eq_layOut : ∀ (j : Json) (level : Nat), j.prettyAt level = j.layOut .lines level
  | array [], _ => rfl
  | array (j :: js), level => by
    rw [prettyAt, layOut, prettyElements_eq_layOut (j :: js) (level + 1), layOutElements,
      inBrackets]
    · rfl
    · exact List.cons_ne_nil _ _
  | object [], _ => rfl
  | object ((name, j) :: ms), level => by
    rw [prettyAt, layOut, prettyMembers_eq_layOut ((name, j) :: ms) (level + 1), layOutMembers,
      inBrackets]
    · rfl
    · exact List.cons_ne_nil _ _
  | null, _ => rfl
  | bool _, _ => rfl
  | natural _, _ => rfl
  | number, _ => rfl
  | string _, _ => rfl

theorem prettyElements_eq_layOut : ∀ (js : List Json) (level : Nat),
    prettyElements level js = separated (newLine level) (layOutElements .lines level js)
  | [], _ => rfl
  | [j], level => by
    rw [prettyElements, prettyAt_eq_layOut j level, layOutElements, layOutElements,
      separated_singleton]
  | j :: j' :: js, level => by
    show newLine level ++ j.prettyAt level ++ ',' :: prettyElements level (j' :: js) = _
    rw [prettyAt_eq_layOut j level, prettyElements_eq_layOut (j' :: js) level]
    rfl

theorem prettyMembers_eq_layOut : ∀ (ms : List (String × Json)) (level : Nat),
    prettyMembers level ms = separated (newLine level) (layOutMembers .lines level ms)
  | [], _ => rfl
  | [(name, j)], level => by
    rw [prettyMembers, prettyAt_eq_layOut j level, layOutMembers, layOutMembers,
      separated_singleton, List.append_assoc]
    rfl
  | (name, j) :: (name', j') :: ms, level => by
    show newLine level ++ quote name ++ ':' :: ' ' ::
      (j.prettyAt level ++ ',' :: prettyMembers level ((name', j') :: ms)) = _
    rw [prettyAt_eq_layOut j level, prettyMembers_eq_layOut ((name', j') :: ms) level,
      layOutMembers, layOutMembers, layOutMembers, separated_cons_cons, memberText_lines name]
    simp only [List.append_assoc, List.cons_append]

end

/-! ### Reading values -/

/-- A value whose natural numbers have at most 64 bits. -/
inductive Fits : Json → Prop
  | null : Fits .null
  | bool (b : Bool) : Fits (.bool b)
  | natural {n : Nat} (h : n < significandBound) : Fits (.natural n)
  | number : Fits .number
  | string (s : String) : Fits (.string s)
  | array {js : List Json} (h : ∀ j ∈ js, Fits j) : Fits (.array js)
  | object {ms : List (String × Json)} (h : ∀ m ∈ ms, Fits m.2) : Fits (.object ms)

theorem depthAll_le {js : List Json} {n : Nat} : depthAll js ≤ n ↔ ∀ j ∈ js, j.depth ≤ n := by
  induction js with
  | nil => simp [depthAll]
  | cons j js ih => rw [depthAll, Nat.max_le, List.forall_mem_cons, ih]

theorem depthMembers_le {ms : List (String × Json)} {n : Nat} :
    depthMembers ms ≤ n ↔ ∀ m ∈ ms, m.2.depth ≤ n := by
  induction ms with
  | nil => simp [depthMembers]
  | cons m ms ih => rw [depthMembers, Nat.max_le, List.forall_mem_cons, ih]

theorem value_append {w : List Char} (hw : IsBlank w) (levels : Nat) (cs : List Char) :
    value levels (w ++ cs) = value levels cs := by
  unfold value
  rw [skipBlanks_append hw]

theorem skipsBlanks_value (levels : Nat) : SkipsBlanks (value levels) :=
  fun _ cs hw ↦ value_append hw levels cs

theorem value_array (levels : Nat) (cs : List Char) :
    value (levels + 1) ('[' :: cs)
      = (elements (value levels) (cs.length + 1) true cs).map
        fun (js, rest) ↦ (.array js, rest) := rfl

theorem value_object (levels : Nat) (cs : List Char) :
    value (levels + 1) ('\x7b' :: cs)
      = (members (value levels) (cs.length + 1) true cs).map
        fun (ms, rest) ↦ (.object ms, rest) := rfl

theorem value_scalar {c : Char} (hblank : isBlank c = false) (harray : c ≠ '[')
    (hobject : c ≠ '\x7b') (levels : Nat) (cs : List Char) :
    value levels (c :: cs) = scalarValue (c :: cs) := by
  unfold value
  rw [skipBlanks_cons hblank]
  split
  · next heq => exact absurd (List.cons.inj heq).1 harray
  · next heq => exact absurd (List.cons.inj heq).1 hobject
  · next heq => exact absurd (List.cons.inj heq).1 harray
  · next heq => exact absurd (List.cons.inj heq).1 hobject
  · rfl

/-- The name of a member is read back. -/
theorem memberName_quote (name : String) (cs : List Char) :
    memberName (quote name ++ cs) = .ok (name, cs) := by
  have hquote : quote name ++ cs
      = '\x22' :: (name.toList.flatMap escapeChar ++ '\x22' :: cs) := by
    rw [quote, List.cons_append, List.append_assoc]
    rfl
  rw [hquote]
  exact text_quote name cs

theorem memberName_memberText (s : Spacing) (name : String) (t cs : List Char) :
    memberName (memberText s name t ++ cs) = .ok (name, ':' :: (s.space ++ (t ++ cs))) := by
  rw [memberText, List.append_assoc, memberName_quote, List.cons_append, List.append_assoc]

theorem colon_cons (cs : List Char) : colon (':' :: cs) = .ok cs := rfl

theorem starts_memberText (s : Spacing) (name : String) (t : List Char) :
    Starts (memberText s name t) :=
  ⟨'\x22', _, rfl, by decide, by rintro (h | h) <;> cases h⟩

/-- The value of a member is read behind the colon. -/
theorem Takes.takes_space {α : Type} {value : Reader α} {t : List Char} {a : α}
    (h : Takes value t a) (hvalue : SkipsBlanks value) (s : Spacing) {cs : List Char}
    (hcs : EndsNumber cs) : value (s.space ++ (t ++ cs)) = .ok (a, cs) := by
  rw [hvalue _ _ s.isBlank_space, h.takes cs hcs]

/-- A member is read back, if its value is. -/
theorem takes_member {α : Type} {value : Reader α} {t : List Char} {a : α}
    (hvalue : SkipsBlanks value) (h : Takes value t a) (s : Spacing) (name : String) :
    Takes (member value) (memberText s name t) (name, a) where
  starts := starts_memberText s name t
  takes cs hcs := by
    simp only [member, bind_of_ok (memberName_memberText s name t cs), bind_of_ok (colon_cons _),
      bind_of_ok (h.takes_space hvalue s hcs)]

theorem layOutElements_eq_map (s : Spacing) (level : Nat) (js : List Json) :
    layOutElements s level js = js.map (layOut s level) := by
  induction js with
  | nil => rfl
  | cons j js ih => rw [layOutElements, ih, List.map_cons]

theorem layOutMembers_eq_map (s : Spacing) (level : Nat) (ms : List (String × Json)) :
    layOutMembers s level ms = ms.map fun m ↦ memberText s m.1 (m.2.layOut s level) := by
  induction ms with
  | nil => rfl
  | cons m ms ih => rw [layOutMembers, ih, List.map_cons]

theorem length_le_length_flatMap_comma (inner : List Char) (ts : List (List Char)) :
    ts.length ≤ (ts.flatMap fun t ↦ ',' :: (inner ++ t)).length := by
  induction ts with
  | nil => exact Nat.le_refl _
  | cons t ts ih =>
    rw [List.flatMap_cons, List.length_append, List.length_cons, List.length_cons]
    omega

/-- A list in brackets has at least as many characters as members. -/
theorem length_le_length_inBrackets (closing : Char) (inner outer : List Char)
    (ts : List (List Char)) : ts.length ≤ (inBrackets closing inner outer ts).length := by
  cases ts with
  | nil => exact Nat.zero_le _
  | cons t ts =>
    have hlength := length_le_length_flatMap_comma inner ts
    simp only [inBrackets, separated, List.length_append, List.length_cons]
    omega

/-- What is read in as many steps as there are characters is read. -/
theorem listed_inBrackets_length {α : Type} {closing : Char} {element : Reader α}
    {inner outer : List Char} {ts : List (List Char)} {as : List α} (hclosing : IsClosing closing)
    (hinner : IsBlank inner) (houter : IsBlank outer) (h : List.Forall₂ (Takes element) ts as)
    (cs : List Char) :
    listed closing element ((inBrackets closing inner outer ts ++ cs).length + 1) true
      (inBrackets closing inner outer ts ++ cs) = .ok (as, cs) := by
  have hlength := length_le_length_inBrackets closing inner outer ts
  refine listed_inBrackets hclosing hinner houter h ?_ cs
  rw [List.length_append]
  omega

/-- Whether a character starts a value that is neither an array nor an object. -/
def startsScalar (c : Char) : Bool :=
  !isBlank c && c != ']' && c != '\x7d' && c != '[' && c != '\x7b'

theorem takes_scalar {c : Char} {t : List Char} {j : Json} (hc : startsScalar c = true)
    (h : ∀ cs, EndsNumber cs → scalarValue (c :: t ++ cs) = .ok (j, cs)) (levels : Nat) :
    Takes (value levels) (c :: t) j := by
  simp only [startsScalar, Bool.and_eq_true, Bool.not_eq_true', bne_iff_ne] at hc
  obtain ⟨⟨⟨⟨hblank, hbracket⟩, hbrace⟩, harray⟩, hobject⟩ := hc
  refine ⟨⟨c, t, rfl, hblank, fun hclosing ↦ hclosing.elim hbracket hbrace⟩, fun cs hcs ↦ ?_⟩
  rw [List.cons_append, value_scalar hblank harray hobject]
  exact h cs hcs

theorem ne_of_isDigit {c d : Char} (hc : isDigit c = true) (hd : isDigit d = false) : c ≠ d := by
  rintro rfl
  exact Bool.false_ne_true (hd.symm.trans hc)

/-- A number is read as a value. -/
theorem scalarValue_digit {c : Char} (hc : isDigit c = true) (cs : List Char) :
    scalarValue (c :: cs) = numberValue (c :: cs) := by
  have hne (d : Char) (hd : isDigit d = false) : c ≠ d := ne_of_isDigit hc hd
  rw [scalarValue, if_neg (hne _ (by decide)), if_neg (hne _ (by decide)),
    if_neg (hne _ (by decide)), if_neg (hne _ (by decide)), if_pos (Or.inr hc)]

theorem startsScalar_of_isDigit {c : Char} (hc : isDigit c = true) : startsScalar c = true := by
  have hne (d : Char) (hd : isDigit d = false) : c ≠ d := ne_of_isDigit hc hd
  simp [startsScalar, isBlank, hne ' ' (by decide), hne '\n' (by decide), hne '\t' (by decide),
    hne '\r' (by decide), hne ']' (by decide), hne '\x7d' (by decide), hne '[' (by decide),
    hne '\x7b' (by decide)]

/-- **A value is read back from its layout,** if it does not nest too deep and its numbers are not
too large. -/
theorem takes_value (s : Spacing) {j : Json} (hfits : j.Fits) :
    ∀ level levels, j.depth ≤ levels → Takes (value levels) (j.layOut s level) j := by
  induction hfits with
  | null => exact fun _ levels _ ↦ takes_scalar (c := 'n') (by decide) (fun _ _ ↦ rfl) levels
  | bool b =>
    intro level levels _
    cases b
    · exact takes_scalar (c := 'f') (by decide) (fun _ _ ↦ rfl) levels
    · exact takes_scalar (c := 't') (by decide) (fun _ _ ↦ rfl) levels
  | @natural n h =>
    intro level levels _
    obtain ⟨d, ds, hds⟩ := List.exists_cons_of_ne_nil (Nat.toDigits_ne_nil (n := n) (b := 10))
    have hdigit : isDigit d = true :=
      isDigit_of_mem_toDigits (n := n) (hds ▸ List.mem_cons_self)
    have htakes := takes_scalar (t := ds) (j := .natural n) (startsScalar_of_isDigit hdigit) (by
      intro cs hcs
      rw [List.cons_append, scalarValue_digit hdigit, ← List.cons_append, ← hds]
      exact numberValue_toDigits h hcs) levels
    rw [← hds] at htakes
    exact htakes
  | number =>
    intro level levels _
    refine takes_scalar (c := '0') (t := ['.', '0']) (by decide) (fun cs hcs ↦ ?_) levels
    exact (scalarValue_digit (by decide) _).trans (numberValue_number hcs)
  | string text =>
    intro level levels _
    refine takes_scalar (c := '\x22') (by decide) (fun cs _ ↦ ?_) levels
    rw [List.cons_append, List.append_assoc]
    show (Json.text _).map _ = _
    rw [List.singleton_append, text_quote]
    rfl
  | @array js _ ih =>
    intro level levels hdepth
    rw [depth] at hdepth
    obtain ⟨levels, rfl⟩ := Nat.exists_eq_succ_of_ne_zero (Nat.ne_zero_of_lt hdepth)
    have hmembers := depthAll_le.mp (Nat.le_of_succ_le_succ hdepth)
    have hall : List.Forall₂ (Takes (value levels)) (layOutElements s (level + 1) js) js := by
      rw [layOutElements_eq_map, List.forall₂_map_left_iff, List.forall₂_same]
      exact fun j hj ↦ ih j hj (level + 1) levels (hmembers j hj)
    refine ⟨⟨'[', _, rfl, by decide, by rintro (h | h) <;> cases h⟩, fun cs _ ↦ ?_⟩
    rw [layOut, List.cons_append, value_array, elements_eq_listed,
      listed_inBrackets_length (.inl rfl) (s.isBlank_line _) (s.isBlank_line _) hall]
    rfl
  | @object ms _ ih =>
    intro level levels hdepth
    rw [depth] at hdepth
    obtain ⟨levels, rfl⟩ := Nat.exists_eq_succ_of_ne_zero (Nat.ne_zero_of_lt hdepth)
    have hmembers := depthMembers_le.mp (Nat.le_of_succ_le_succ hdepth)
    have hall : List.Forall₂ (Takes (member (value levels)))
        (layOutMembers s (level + 1) ms) ms := by
      rw [layOutMembers_eq_map, List.forall₂_map_left_iff, List.forall₂_same]
      exact fun m hm ↦ takes_member (skipsBlanks_value levels)
        (ih m hm (level + 1) levels (hmembers m hm)) s m.1
    refine ⟨⟨'\x7b', _, rfl, by decide, by rintro (h | h) <;> cases h⟩, fun cs _ ↦ ?_⟩
    rw [layOut, List.cons_append, value_object, members_eq_listed,
      listed_inBrackets_length (.inr rfl) (s.isBlank_line _) (s.isBlank_line _) hall]
    rfl

end DocumentMath.Json
