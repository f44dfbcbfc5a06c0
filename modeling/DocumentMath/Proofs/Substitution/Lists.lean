import DocumentMath.Proofs.Substitution.Sets

/-!
# Lists of names

A list of substitutions is written as entries with commas between them. A substitution is named by
an entry that is, but for blanks around it, one of the substitution's own names or the name of a
group that it belongs to (`SubstitutionSet.Names`). The set that a list describes contains the
substitutions that it names (`contains_resolve_iff`), and nothing else of the list counts: not the
order of its entries, nor repeats, empty entries and unknown names. So lists that name the same
describe one set, and two lists in a row name what one of them names (`resolve_told_by_names`).
-/

namespace DocumentMath

namespace Substitution

/-- The names of the substitution itself. -/
def ownNames : Substitution → List String
  | specialCharacters => ["specialcharacters", "specialchars", "c"]
  | quotes => ["quotes", "q"]
  | attributes => ["attributes", "a"]
  | replacements => ["replacements", "r"]
  | macros => ["macros", "m"]
  | postReplacements => ["post_replacements", "p"]

/-- The names of the groups that the substitution belongs to: the normal one, which has all
substitutions in it, and the verbatim one. -/
def groupNames : Substitution → List String
  | specialCharacters => ["normal", "n", "verbatim", "v"]
  | _ => ["normal", "n"]

end Substitution

namespace SubstitutionSet

open Substitution

variable {list list₁ list₂ name : String} {sub : Substitution}

/-- One of the entries of the list, which have commas between them, stands for the substitution. -/
def Names (list : String) (sub : Substitution) : Prop :=
  ∃ entries : List String, list = ",".intercalate entries ∧ (∀ e ∈ entries, ',' ∉ e.toList) ∧
    ∃ e ∈ entries, Text.trimmed e ∈ sub.ownNames ∨ Text.trimmed e ∈ sub.groupNames

/-! ### Single names -/

theorem ofName?_eq_some_iff : ofName? name = some sub ↔ name ∈ sub.ownNames := by
  constructor
  · intro h
    unfold ofName? at h
    split at h <;> cases h <;> decide
  · intro h
    cases sub <;> simp only [ownNames, List.mem_cons, List.not_mem_nil, or_false] at h
    case specialCharacters => obtain rfl | rfl | rfl := h <;> rfl
    all_goals obtain rfl | rfl := h <;> rfl

/-- What a name stands for are the substitutions that it is a name of. -/
theorem mem_membersOf?_iff :
    sub ∈ (membersOf? name).getD [] ↔ name ∈ sub.ownNames ∨ name ∈ sub.groupNames := by
  unfold membersOf?
  split
  case h_6 hnormal hn hverbatim hv =>
    have hgroup : name ∉ sub.groupNames := by
      cases sub <;> simp only [groupNames, List.mem_cons, List.not_mem_nil, or_false, not_or]
      case specialCharacters => exact ⟨hnormal, hn, hverbatim, hv⟩
      all_goals exact ⟨hnormal, hn⟩
    rw [or_iff_left hgroup, ← ofName?_eq_some_iff]
    cases ofName? name with
    | none => simp
    | some found => simp [eq_comm]
  all_goals cases sub <;> decide

/-! ### Entries -/

/-- No separator is left in what a text is cut into. -/
theorem notMem_of_mem_splitOn {separator : Char} {cs : List Char} :
    ∀ part ∈ cs.splitOn separator, separator ∉ part := by
  induction cs with
  | nil => exact List.forall_mem_singleton.mpr List.not_mem_nil
  | cons c cs ih =>
    obtain ⟨first, parts, hparts⟩ := List.exists_cons_of_ne_nil (List.splitOn_ne_nil separator cs)
    rw [List.splitOn_cons_eq_if_modifyHead]
    rw [hparts, List.forall_mem_cons] at ih
    split
    · rw [hparts, List.forall_mem_cons, List.forall_mem_cons]
      exact ⟨List.not_mem_nil, ih⟩
    · next hc =>
      rw [hparts, List.modifyHead_cons, List.forall_mem_cons, List.mem_cons, not_or]
      exact ⟨⟨fun heq ↦ hc (beq_iff_eq.mpr heq.symm), ih.1⟩, ih.2⟩

/-- The entries of a list are what it is cut into at its commas. -/
theorem names_iff : Names list sub ↔ ∃ part ∈ list.toList.splitOn ',',
    String.ofList (Text.trim part) ∈ sub.ownNames ∨
      String.ofList (Text.trim part) ∈ sub.groupNames := by
  constructor
  · rintro ⟨entries, rfl, hcomma, e, he, hnames⟩
    have hparts : (",".intercalate entries).toList.splitOn ',' = entries.map String.toList := by
      rw [String.toList_intercalate]
      refine List.splitOn_intercalate ',' ?_ (mt List.map_eq_nil_iff.mp (List.ne_nil_of_mem he))
      exact List.forall_mem_map.mpr hcomma
    rw [hparts]
    exact ⟨e.toList, List.mem_map_of_mem he, hnames⟩
  · rintro ⟨part, hpart, hnames⟩
    refine ⟨(list.toList.splitOn ',').map String.ofList, ?_, ?_, String.ofList part,
      List.mem_map_of_mem hpart, ?_⟩
    · rw [← String.toList_inj, String.toList_intercalate, List.map_map]
      simp [Function.comp_def, List.intercalate_splitOn]
    · refine List.forall_mem_map.mpr fun part hpart ↦ ?_
      rw [String.toList_ofList]
      exact notMem_of_mem_splitOn part hpart
    · rwa [Text.trimmed, String.toList_ofList]

/-- An entry that names something is not empty. -/
theorem isEmpty_eq_false_of_mem_membersOf? (h : sub ∈ (membersOf? name).getD []) :
    name.isEmpty = false := by
  rw [String.isEmpty_eq_false_iff]
  rintro rfl
  exact List.not_mem_nil h

/-- The set that a list describes contains what the list names. -/
theorem contains_resolve_iff : (resolve list).contains sub = true ↔ Names list sub := by
  simp only [resolve, contains_ofList, namesIn, Text.partsBetween_eq_splitOn, names_iff,
    List.mem_flatMap, List.mem_filter, List.mem_map, ← mem_membersOf?_iff]
  constructor
  · rintro ⟨-, ⟨⟨part, hpart, rfl⟩, -⟩, hsub⟩
    exact ⟨part, hpart, hsub⟩
  · rintro ⟨part, hpart, hsub⟩
    refine ⟨_, ⟨⟨part, hpart, rfl⟩, ?_⟩, hsub⟩
    rw [isEmpty_eq_false_of_mem_membersOf? hsub]
    rfl

/-- Two lists in a row name what one of them names. -/
theorem names_append_comma_iff :
    Names (list₁ ++ "," ++ list₂) sub ↔ Names list₁ sub ∨ Names list₂ sub := by
  have hcut : (list₁ ++ "," ++ list₂).toList = list₁.toList ++ ',' :: list₂.toList := by
    rw [String.toList_append, String.toList_append, List.append_assoc]
    rfl
  simp only [names_iff, hcut, List.splitOn_append_cons_self, List.mem_append, or_and_right,
    exists_or]

/-! ### Main result -/

/-- **A list is told by what it names.** The sets that two lists describe are the same exactly if
the lists name the same substitutions, in whatever order, how often and by whichever names; and
then they do the same to every text, under all attributes. The set of two lists in a row contains
what the set of one of them contains. -/
theorem resolve_told_by_names (list₁ list₂ : String) :
    (resolve list₁ = resolve list₂ ↔ ∀ sub, Names list₁ sub ↔ Names list₂ sub) ∧
      ((∀ sub, Names list₁ sub ↔ Names list₂ sub) → ∀ attributes? text,
        (resolve list₁).apply attributes? text = (resolve list₂).apply attributes? text) ∧
      ∀ sub, (resolve (list₁ ++ "," ++ list₂)).contains sub
        = ((resolve list₁).contains sub || (resolve list₂).contains sub) := by
  have hsame : resolve list₁ = resolve list₂ ↔ ∀ sub, Names list₁ sub ↔ Names list₂ sub := by
    rw [eq_iff_contains_eq (isIncreasing_resolve list₁) (isIncreasing_resolve list₂)]
    refine forall_congr' fun sub ↦ ?_
    rw [Bool.eq_iff_iff, contains_resolve_iff, contains_resolve_iff]
  refine ⟨hsame, fun h attributes? text ↦ by rw [hsame.mpr h], fun sub ↦ ?_⟩
  rw [Bool.eq_iff_iff, Bool.or_eq_true, contains_resolve_iff, contains_resolve_iff,
    contains_resolve_iff]
  exact names_append_comma_iff

/-- Two lists of the same substitutions: in another order, by other names, with a group that has one
of them in it, and with entries that stand for nothing. -/
theorem resolve_told_by_names_of_shuffled :
    (∀ sub, Names "a, verbatim,,c" sub ↔ Names "specialchars,x, attributes ,none" sub) ∧
      resolve "a, verbatim,,c" = resolve "specialchars,x, attributes ,none" ∧
      (∀ attributes? text, (resolve "a, verbatim,,c").apply attributes? text
        = (resolve "specialchars,x, attributes ,none").apply attributes? text) ∧
      (resolve ("a, verbatim,,c" ++ "," ++ "q,a")).contains .quotes = true := by
  obtain ⟨hsame, happly, -⟩ :=
    resolve_told_by_names "a, verbatim,,c" "specialchars,x, attributes ,none"
  obtain ⟨-, -, happend⟩ := resolve_told_by_names "a, verbatim,,c" "q,a"
  have heq : resolve "a, verbatim,,c" = resolve "specialchars,x, attributes ,none" := by
    decide +kernel
  have hnames := hsame.mp heq
  refine ⟨hnames, heq, happly hnames, ?_⟩
  rw [happend]
  decide +kernel

end SubstitutionSet

end DocumentMath
