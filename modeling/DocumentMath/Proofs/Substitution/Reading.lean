import DocumentMath.Proofs.Document.Place
import DocumentMath.Proofs.Document.RoundTrip
import DocumentMath.Proofs.Substitution.Sets

/-!
# Sets that are read

The sets that are put together have their members in canonical order, whatever they are put together
from (`SubstitutionSet.IsMade.isIncreasing`). A set that is read with a block of prose is not put
together but taken as it is written: its members are those that the value of the block names, in the
same order and as often (`Prose.writtenSubs?_eq`). So it is in order if the names are, and there is
no list of substitutions that is not the set of a block that has been read
(`SubstitutionSet.isRead`).
-/

namespace DocumentMath

/-! ### Names that are written -/

namespace Json

/-- What is chosen by its name has this name. -/
theorem choice?_of_chosen? {α : Type} {choices : List α} {tag : α → String} {j : Json} {a : α}
    (h : chosen? choices tag j = some a) : j.choice? = some (tag a) := by
  obtain ⟨name, hname, hfound⟩ := Option.bind_eq_some_iff.mp h
  have htag := List.find?_some hfound
  rw [hname, beq_iff_eq.mp htag]

theorem mapM_eq_some_map {α β γ : Type} {f : α → Option β} {g : α → Option γ} {k : β → γ}
    (h : ∀ a b, f a = some b → g a = some (k b)) {as : List α} {bs : List β}
    (hbs : as.mapM f = some bs) : as.mapM g = some (bs.map k) := by
  induction as generalizing bs with
  | nil =>
    cases hbs
    rfl
  | cons a as ih =>
    rw [List.mapM_cons] at hbs
    obtain ⟨b, hb, hbs⟩ := Option.bind_eq_some_iff.mp hbs
    obtain ⟨bs', hbs', hbs⟩ := Option.bind_eq_some_iff.mp hbs
    cases hbs
    rw [List.mapM_cons, h a b hb, ih hbs']
    rfl

/-- A list of choices has the names that are written. -/
theorem list?_choice?_of_chosen? {α : Type} {choices : List α} {tag : α → String} {j : Json}
    {as : List α} (h : list? (chosen? choices tag) j = some as) :
    list? choice? j = some (as.map tag) := by
  cases j with
  | array js =>
    have hchoice : ∀ j a, chosen? choices tag j = some a → j.choice? = some (tag a) :=
      fun _ _ ↦ choice?_of_chosen?
    exact mapM_eq_some_map hchoice h
  | _ => cases h

end Json

open Json

/-- The names of substitutions in the value of a block of prose; if there is no such field, the
names of all substitutions. -/
def Prose.writtenSubs? (j : Json) : Option (List String) := do
  match ← j.fields? ["id", "title", "context", "lines", "subs"] with
  | [_, _, _, _, subs?] => withDefault? (Substitution.all.map (·.tag)) (list? choice?) subs?
  | _ => none

/-- The substitutions of a block are those that its value names. -/
theorem Prose.writtenSubs?_eq {j : Json} {p : Prose} (h : Prose.ofJson? j = some p) :
    writtenSubs? j = some (p.subs.members.map (·.tag)) := by
  obtain ⟨fields, hfields, h⟩ := Option.bind_eq_some_iff.mp h
  rw [writtenSubs?, hfields]
  split at h
  · next subs? =>
    obtain ⟨id, -, h⟩ := Option.bind_eq_some_iff.mp h
    obtain ⟨title, -, h⟩ := Option.bind_eq_some_iff.mp h
    obtain ⟨context, -, h⟩ := Option.bind_eq_some_iff.mp h
    obtain ⟨lines, -, h⟩ := Option.bind_eq_some_iff.mp h
    obtain ⟨subs, hsubs, h⟩ := Option.bind_eq_some_iff.mp h
    cases h
    cases subs? with
    | none =>
      cases hsubs
      rfl
    | some j =>
      obtain ⟨members, hmembers, rfl⟩ := Option.map_eq_some_iff.mp hsubs
      exact list?_choice?_of_chosen? hmembers
  · cases h

namespace SubstitutionSet

open Substitution

variable {s t : SubstitutionSet}

/-! ### Where sets come from -/

/-- The set is put together in one of the ways there are. -/
inductive IsMade : SubstitutionSet → Prop
  | ofList (subs : List Substitution) : IsMade (ofList subs)
  | resolve (list : String) : IsMade (resolve list)
  | none : IsMade none
  | normal : IsMade normal
  | verbatim : IsMade verbatim

/-- The set is that of a block of prose somewhere in a document that has been read. -/
def IsRead (s : SubstitutionSet) : Prop :=
  ∃ text d within path p, Document.ofJsonText text = .ok d ∧
    d.nodeIn? within path = some (.block (.prose p)) ∧ p.subs = s

theorem IsMade.isIncreasing (h : s.IsMade) : s.IsIncreasing := by
  cases h with
  | ofList subs => exact isIncreasing_ofList subs
  | resolve list => exact isIncreasing_resolve list
  | none => decide
  | normal => decide
  | verbatim => decide

/-- The members of a set increase if their names are listed in canonical order. -/
theorem isIncreasing_iff_tags :
    s.IsIncreasing ↔ (s.members.map (·.tag)).Sublist (all.map (·.tag)) := by
  rw [isIncreasing_iff_sublist]
  refine ⟨fun h ↦ h.map _, fun h ↦ ?_⟩
  have hleft : ∀ subs : List Substitution, (subs.map (·.tag)).filterMap ofTag? = subs := by
    intro subs
    have hinverse : ∀ sub : Substitution, ofTag? sub.tag = some sub := by
      intro sub
      cases sub <;> rfl
    rw [List.filterMap_map]
    exact (List.filterMap_congr fun sub _ ↦ hinverse sub).trans List.filterMap_some
  have hsublist := h.filterMap ofTag?
  rwa [hleft, hleft] at hsublist

/-! ### Sets of all kinds are read -/

/-- A document of one paragraph to which a set is to be applied. -/
def inDocument (s : SubstitutionSet) : Document :=
  ⟨.empty, [.prose ⟨Option.none, Option.none, "paragraph", ["a < b"], s⟩]⟩

/-- The document is read back from its text. -/
theorem ofJsonText_inDocument (s : SubstitutionSet) :
    Document.ofJsonText (s.inDocument.toJsonText .compact) = .ok s.inDocument := by
  have hfresh : s.inDocument.IsFresh := List.forall_mem_singleton.mpr (.prose _)
  have hmembers : depthAll (s.members.map fun sub ↦ Json.string sub.tag) = 0 := by
    refine Nat.le_zero.mp (depthAll_le.mpr fun j hj ↦ ?_)
    obtain ⟨sub, -, rfl⟩ := List.mem_map.mp hj
    exact Nat.le_refl _
  have hdepth : s.inDocument.toJson.depth ≤ maxDepth := by
    have hsubs : s.toJson.depth = 1 := by rw [toJson, depth, hmembers]
    simp [Document.toJson, inDocument, blocksToJson, Block.toJson, depth, depthMembers, depthAll,
      hsubs, ofString?, Attributes.toJson, Attributes.empty, maxDepth]
  have htakes := (Document.takes_readDocument JsonLayout.compact.spacing hfresh hdepth 0).takes []
    (fun c hc ↦ absurd hc (by simp))
  rw [List.append_nil, ← Document.toList_toJsonText] at htakes
  rw [Document.ofJsonText, Fallible.bind_of_ok htakes]
  rfl

/-- Nothing is asked of the substitutions of a block that is read. -/
theorem isRead (s : SubstitutionSet) : s.IsRead :=
  ⟨_, _, [], [.block 0], _, ofJsonText_inDocument s, rfl, rfl⟩

/-! ### Main result -/

/-- **Sets are in order unless they are read.** The members of a set that is put together increase,
and of a set whose members increase what is expected of a set holds: no member repeats, it is told
by what it contains, and to apply it is to go once through all substitutions in canonical order. A
set that is read has the members that are written, and increases just if they are written so; but
every set can be read. -/
theorem in_order_unless_read (s : SubstitutionSet) :
    (s.IsMade → s.IsIncreasing) ∧
      (s.IsIncreasing → s.members.Nodup ∧
        (∀ t : SubstitutionSet, t.IsIncreasing →
          (s = t ↔ ∀ sub, s.contains sub = t.contains sub)) ∧
        ∀ attributes? text, s.apply attributes? text = String.ofList (all.foldl
          (fun cs sub ↦ if s.contains sub then sub.apply attributes? cs else cs) text.toList)) ∧
      (∀ j p, Prose.ofJson? j = some p → p.subs = s → ∃ names, Prose.writtenSubs? j = some names ∧
        s.members.map (·.tag) = names ∧
        (s.IsIncreasing ↔ names.Sublist (all.map (·.tag)))) ∧
      s.IsRead := by
  refine ⟨IsMade.isIncreasing, fun h ↦ ⟨h.nodup, fun t ht ↦ eq_iff_contains_eq h ht,
    h.apply_eq_foldl_all⟩, ?_, s.isRead⟩
  rintro j p hp rfl
  exact ⟨_, Prose.writtenSubs?_eq hp, rfl, isIncreasing_iff_tags⟩

/-- A set that is put together from members in disorder is not the one that is read from them. -/
theorem in_order_unless_read_of_disorder :
    let subs : List Substitution := [.macros, .specialCharacters, .macros]
    (ofList subs).IsMade ∧ (ofList subs).IsIncreasing ∧ (ofList subs).members.Nodup ∧
      IsRead ⟨subs⟩ ∧ ¬IsIncreasing ⟨subs⟩ := by
  intro subs
  obtain ⟨hincreasing, hset, -⟩ := in_order_unless_read (ofList subs)
  obtain ⟨-, -, -, hread⟩ := in_order_unless_read ⟨subs⟩
  have hmade := IsMade.ofList subs
  exact ⟨hmade, hincreasing hmade, (hset (hincreasing hmade)).1, hread, by decide⟩

/-- A document with a block that has a substitution twice. -/
def textWithRepeats : String :=
  "\x7b\"attributes\":\x7b\x7d,\"blocks\":[\x7b\"type\":\"prose\",\"id\":null,\"title\":null," ++
    "\"context\":\"paragraph\",\"lines\":[\"a < b\"]," ++
    "\"subs\":[\"special_characters\",\"macros\",\"special_characters\"]\x7d]\x7d"

/-- Not every set is in order. The one that is read here is not the set of its own members, although
the two contain the same, and to apply it escapes special characters twice. -/
theorem not_in_order_of_repeats :
    ∃ d p, Document.ofJsonText textWithRepeats = .ok d ∧
      d.nodeIn? [] [.block 0] = some (.block (.prose p)) ∧
      ¬p.subs.IsIncreasing ∧ ¬p.subs.members.Nodup ∧ p.subs ≠ ofList p.subs.members ∧
      (∀ sub, p.subs.contains sub = (ofList p.subs.members).contains sub) ∧
      p.subs.apply Option.none p.text = "a &amp;lt; b" ∧
      (ofList p.subs.members).apply Option.none p.text = "a &lt; b" := by
  let s : SubstitutionSet := ⟨[.specialCharacters, .macros, .specialCharacters]⟩
  have htext : textWithRepeats = s.inDocument.toJsonText .compact := by decide +kernel
  have hread := ofJsonText_inDocument s
  rw [← htext] at hread
  refine ⟨_, _, hread, rfl, by decide, by decide, by decide, fun sub ↦ ?_, by decide +kernel,
    by decide +kernel⟩
  cases sub <;> rfl

end SubstitutionSet

end DocumentMath
