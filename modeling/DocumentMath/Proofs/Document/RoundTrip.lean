import DocumentMath.Document.Reading
import DocumentMath.Proofs.Document.Decoding

/-!
# Serialized documents are read back

A serialized document is read from front to back. The readers for its parts take just the text that
was written for them (`takes_readAttributes`, `takes_readBlock`, `takes_readBlocks`), whatever the
layout; together with the decoding of blocks this makes that a fresh document is read back from
either of its texts (`ofJsonText_toJsonText`).
-/

namespace DocumentMath

open Json
open Fallible (bind_of_ok bind_eq_ok)

namespace Document

/-! ### Blanks -/

theorem skipsBlanks_readText : SkipsBlanks readText := by
  intro w cs hw
  rw [readText, readText, skipBlanks_append hw]

theorem skipsBlanks_readAttributes : SkipsBlanks readAttributes := by
  intro w cs hw
  rw [readAttributes, readAttributes, skipBlanks_append hw]

theorem skipsBlanks_readBlocks : SkipsBlanks readBlocks := by
  intro w cs hw
  rw [readBlocks, readBlocks, skipBlanks_append hw]

/-! ### Attributes -/

variable (s : Spacing)

theorem takes_readText (text : String) (level : Nat) :
    Takes readText ((Json.string text).layOut s level) text := by
  refine ⟨⟨'\x22', _, rfl, by decide, by rintro (h | h) <;> cases h⟩, fun cs _ ↦ ?_⟩
  exact memberName_quote text cs

theorem takes_readAttributes (a : Attributes) (level : Nat) :
    Takes readAttributes (a.toJson.layOut s level) a := by
  have hall : List.Forall₂ (Takes (member readText))
      (layOutMembers s (level + 1) (a.entries.map fun e ↦ (e.1, Json.string e.2))) a.entries := by
    rw [layOutMembers_eq_map, List.map_map, List.forall₂_map_left_iff, List.forall₂_same]
    exact fun e _ ↦ takes_member skipsBlanks_readText (takes_readText s e.2 _) s e.1
  refine ⟨⟨'\x7b', _, rfl, by decide, by rintro (h | h) <;> cases h⟩, fun cs _ ↦ ?_⟩
  have hread := listed_inBrackets_length (.inr rfl) (s.isBlank_line (level + 1))
    (s.isBlank_line level) hall cs
  rw [← members_eq_listed] at hread
  rw [Attributes.toJson, layOut, List.cons_append, readAttributes, skipBlanks_cons (by decide)]
  simp only [bind_of_ok hread, Attributes.ofList_entries]

/-! ### Blocks -/

/-- Once its type is known, the members of a block are read as those of any object. -/
theorem readBlockMembers_of_members {steps : Nat} {first : Bool} {typeName : String}
    {ms : List (String × Json)} {cs rest : List Char}
    (h : Json.members (Json.value blockDepth) steps first cs = .ok (ms, rest))
    (hms : ∀ m ∈ ms, m.1 ≠ "type") :
    readBlockMembers steps first (some typeName) cs = .ok ((some typeName, ms), rest) := by
  induction steps generalizing first ms cs with
  | zero => cases h
  | succ steps ih =>
    rw [Json.members] at h
    obtain ⟨⟨another, cs₁⟩, hmore, h⟩ := bind_eq_ok h
    rw [readBlockMembers, bind_of_ok hmore]
    cases another with
    | false =>
      obtain ⟨rfl, rfl⟩ := Prod.mk.inj (Except.ok.inj h)
      rfl
    | true =>
      obtain ⟨⟨name, cs₂⟩, hname, h⟩ := bind_eq_ok h
      obtain ⟨cs₃, hcolon, h⟩ := bind_eq_ok h
      obtain ⟨⟨j, cs₄⟩, hvalue, h⟩ := bind_eq_ok h
      obtain ⟨⟨ms', cs₅⟩, hmembers, h⟩ := bind_eq_ok h
      obtain ⟨rfl, rfl⟩ := Prod.mk.inj (Except.ok.inj h)
      rw [List.forall_mem_cons] at hms
      have hrest := ih hmembers hms.2
      simp only [if_true, bind_of_ok hname, if_neg hms.1, bind_of_ok hcolon, bind_of_ok hvalue,
        bind_of_ok hrest]

/-- A block begins with its type, and the other members follow. -/
theorem readBlockMembers_type {typeName : String} (htype : Block.typeNames.contains typeName = true)
    {steps : Nat} {ms : List (String × Json)} {w rest cs : List Char} (hw : IsBlank w)
    (hrest : EndsNumber rest)
    (h : Json.members (Json.value blockDepth) steps false rest = .ok (ms, cs))
    (hms : ∀ m ∈ ms, m.1 ≠ "type") :
    readBlockMembers (steps + 1) true none (w ++ (memberText s "type" (quote typeName) ++ rest))
      = .ok ((some typeName, ms), cs) := by
  have htext := (takes_readText s typeName 0).takes_space skipsBlanks_readText s hrest
  rw [layOut_string] at htext
  have hread : readType (s.space ++ (quote typeName ++ rest)) = .ok (typeName, rest) := by
    rw [readType, bind_of_ok htext]
    exact if_pos htype
  rw [readBlockMembers, bind_of_ok (more_first hw (starts_memberText s _ _) (.inr rfl) rest)]
  simp only [if_true, bind_of_ok (memberName_memberText s _ _ rest), bind_of_ok (colon_cons _),
    bind_of_ok hread]
  exact readBlockMembers_of_members h hms

theorem takes_readBlock {b : Block} (h : b.IsFresh) (hdepth : b.toJson.depth ≤ blockDepth + 1)
    (level : Nat) : Takes readBlock (b.toJson.layOut s level) b := by
  rw [b.depth_toJson, depth] at hdepth
  have hmembers := depthMembers_le.mp (Nat.le_of_succ_le_succ hdepth)
  have hall : List.Forall₂ (Takes (member (Json.value blockDepth)))
      (layOutMembers s (level + 1) b.members) b.members := by
    rw [layOutMembers_eq_map, List.forall₂_map_left_iff, List.forall₂_same]
    exact fun m hm ↦ takes_member (skipsBlanks_value _)
      (takes_value s (h.fits_members m hm) _ _ (hmembers m hm)) s m.1
  rw [b.toJson_eq]
  refine ⟨⟨'\x7b', _, rfl, by decide, by rintro (h | h) <;> cases h⟩, fun cs _ ↦ ?_⟩
  rw [layOut, layOutMembers, List.cons_append, inBrackets_cons, readBlock,
    skipBlanks_cons (by decide)]
  -- there are as many steps as characters, and so enough for the members behind the type
  have hsteps : (layOutMembers s (level + 1) b.members).length
      < (s.line (level + 1) ++ (memberText s "type" (quote b.kind)
        ++ behindMember '\x7d' (s.line (level + 1)) (s.line level)
          (layOutMembers s (level + 1) b.members) cs)).length := by
    have hlength := length_le_length_flatMap_comma (s.line (level + 1))
      (layOutMembers s (level + 1) b.members)
    simp only [behindMember, List.length_append, List.length_cons]
    omega
  have hrest := listed_behindMember (.inr rfl) (s.isBlank_line (level + 1)) (s.isBlank_line level)
    hall hsteps cs
  rw [← members_eq_listed] at hrest
  have hread := readBlockMembers_type s b.kind_mem_typeNames (s.isBlank_line (level + 1))
    (endsNumber_behindMember (.inr rfl) (s.isBlank_line level) cs) hrest b.name_ne_type
  have hshaped : shaped (Block.ofFields? b.kind (.object b.members)) = .ok b := by
    rw [h.ofFields?]
    rfl
  have htype : shaped (some b.kind) = .ok b.kind := rfl
  show (readBlockMembers _ true none _ >>= _) = _
  rw [layOut_string]
  simp only [bind_of_ok hread, bind_of_ok htype, bind_of_ok hshaped]

/-- Blocks of a document are read back from their array. -/
theorem takes_readBlocks {bs : List Block} (h : ∀ b ∈ bs, b.IsFresh)
    (hdepth : ∀ b ∈ bs, b.toJson.depth ≤ blockDepth + 1) (level : Nat) :
    Takes readBlocks ((Json.array (blocksToJson bs)).layOut s level) bs := by
  have hall : List.Forall₂ (Takes readBlock)
      (layOutElements s (level + 1) (blocksToJson bs)) bs := by
    rw [layOutElements_eq_map, blocksToJson_eq_map, List.map_map, List.forall₂_map_left_iff,
      List.forall₂_same]
    exact fun b hb ↦ takes_readBlock s (h b hb) (hdepth b hb) _
  refine ⟨⟨'[', _, rfl, by decide, by rintro (h | h) <;> cases h⟩, fun cs _ ↦ ?_⟩
  have hread := listed_inBrackets_length (.inl rfl) (s.isBlank_line (level + 1))
    (s.isBlank_line level) hall cs
  rw [← elements_eq_listed] at hread
  rw [layOut, List.cons_append, readBlocks, skipBlanks_cons (by decide)]
  exact hread

/-! ### Documents -/

/-- The members of a document are read back in the order in which they are written. -/
theorem readMembers_inBrackets {attributes : Attributes} {blocks : List Block}
    {t u inner outer : List Char} (ht : Takes readAttributes t attributes)
    (hu : Takes readBlocks u blocks) (hinner : IsBlank inner) (houter : IsBlank outer) (steps : Nat)
    (cs : List Char) :
    readMembers (steps + 3) true ⟨none, none⟩
        (inBrackets '\x7d' inner outer [memberText s "attributes" t, memberText s "blocks" u] ++ cs)
      = .ok (⟨some attributes, some blocks⟩, cs) := by
  have hclosing : IsClosing '\x7d' := .inr rfl
  have hlast : behindMember '\x7d' inner outer [] cs = outer ++ '\x7d' :: cs := rfl
  have hends : EndsNumber (behindMember '\x7d' inner outer [memberText s "blocks" u] cs) :=
    endsNumber_behindMember hclosing houter cs
  have hends' : EndsNumber (outer ++ '\x7d' :: cs) := endsNumber_closing houter hclosing cs
  rw [inBrackets_cons, readMembers,
    bind_of_ok (more_first hinner (starts_memberText s _ _) hclosing _)]
  simp only [if_true, bind_of_ok (memberName_memberText s _ _ _), bind_of_ok (colon_cons _),
    bind_of_ok (ht.takes_space skipsBlanks_readAttributes s hends)]
  rw [behindMember_cons, hlast]
  show readMembers (steps + 2) false ⟨some attributes, none⟩ _ = _
  rw [readMembers, bind_of_ok (more_comma hinner (starts_memberText s _ _) hclosing _)]
  simp only [if_true, bind_of_ok (memberName_memberText s _ _ _), bind_of_ok (colon_cons _),
    bind_of_ok (hu.takes_space skipsBlanks_readBlocks s hends')]
  show readMembers (steps + 1) false ⟨some attributes, some blocks⟩ _ = _
  rw [readMembers, bind_of_ok (more_closing houter hclosing _ _)]
  rfl

theorem two_le_length_inBrackets (inner outer t u : List Char) (cs : List Char) :
    2 ≤ (inBrackets '\x7d' inner outer [memberText s "attributes" t, memberText s "blocks" u]
      ++ cs).length := by
  have hlength := length_le_length_inBrackets '\x7d' inner outer
    [memberText s "attributes" t, memberText s "blocks" u]
  rw [List.length_append]
  exact hlength.trans (Nat.le_add_right _ _)

/-- A document is read back from its object. -/
theorem takes_readDocument {d : Document} (h : d.IsFresh) (hdepth : d.toJson.depth ≤ maxDepth)
    (level : Nat) : Takes readDocument (d.toJson.layOut s level) d := by
  have hblocks : ∀ b ∈ d.blocks, b.toJson.depth ≤ blockDepth + 1 := by
    intro b hb
    have hblock := depth_lt_of_mem_blocks hb
    have harray : (Json.array (blocksToJson d.blocks)).depth < d.toJson.depth :=
      depth_lt_of_mem_object (List.mem_cons_of_mem _ List.mem_cons_self)
    rw [maxDepth] at hdepth
    rw [blockDepth, maxDepth]
    omega
  refine ⟨⟨'\x7b', _, rfl, by decide, by rintro (h | h) <;> cases h⟩, fun cs _ ↦ ?_⟩
  have hattributes := takes_readAttributes s d.attributes (level + 1)
  have hread := takes_readBlocks s h hblocks (level + 1)
  rw [toJson, layOut, List.cons_append, readDocument, skipBlanks_cons (by decide), layOutMembers,
    layOutMembers, layOutMembers]
  have hlength := two_le_length_inBrackets s (s.line (level + 1)) (s.line level)
    (d.attributes.toJson.layOut s (level + 1))
    ((Json.array (blocksToJson d.blocks)).layOut s (level + 1)) cs
  obtain ⟨steps, hsteps⟩ := Nat.exists_eq_add_of_le' hlength
  have hmembers := readMembers_inBrackets s hattributes hread (s.isBlank_line (level + 1))
    (s.isBlank_line level) steps cs
  show (readMembers (_ + 1) true ⟨none, none⟩ _ >>= _) = _
  rw [hsteps, bind_of_ok hmembers]
  cases d
  rfl

end Document

/-- The blanks of a layout. -/
def JsonLayout.spacing : JsonLayout → Spacing
  | pretty => .lines
  | compact => .none

namespace Document

theorem toList_toJsonText (layout : JsonLayout) (d : Document) :
    (d.toJsonText layout).toList = d.toJson.layOut layout.spacing 0 := by
  unfold toJsonText
  rw [String.toList_ofList]
  cases layout with
  | pretty => exact prettyAt_eq_layOut d.toJson 0
  | compact => exact compact_eq_layOut d.toJson 0

/-- **Serialization loses nothing.** A document in which no section knows its converted title, and
whose JSON does not nest too deep to be read, is read back from its text in either layout. -/
theorem ofJsonText_toJsonText (layout : JsonLayout) (d : Document) (hfresh : d.IsFresh)
    (hdepth : d.toJson.depth ≤ maxDepth) : ofJsonText (d.toJsonText layout) = .ok d := by
  have htakes := (takes_readDocument layout.spacing hfresh hdepth 0).takes []
    (fun c hc ↦ absurd hc (by simp))
  rw [List.append_nil, ← toList_toJsonText] at htakes
  rw [ofJsonText, bind_of_ok htakes]
  rfl

/-- A document with blocks of all kinds and a document in a table cell, with texts that need escapes
and substitutions that repeat. -/
def allKinds : Document where
  attributes := (Attributes.empty.insert "stem" "latexmath").insert "imagesdir" "im\"g\\\n"
  blocks :=
    [.sect ⟨some "s", 1, "√2\t", [.math ⟨none, some "T", "asciimath", "x^2", none⟩,
      .compound ⟨none, none, "example", [.prose ⟨none, none, "paragraph", ["a", ""],
        ⟨[.macros, .quotes, .macros]⟩⟩]⟩], none⟩,
    .list ⟨none, none, .ordered 3, [⟨"i", [.passthrough ⟨none, none, "\u0001"⟩]⟩]⟩,
    .list ⟨none, none, .unordered '*', []⟩,
    .table ⟨none, none, [⟨[⟨.asciiDoc, "c", some ⟨.empty,
      [.image ⟨none, none, "i.png", "", some .center, some 5, none⟩]⟩, 1, 2⟩]⟩], 0⟩]

theorem isFresh_allKinds : allKinds.IsFresh := by
  simp only [IsFresh, allKinds, List.forall_mem_cons]
  refine ⟨.sect rfl ?_, .list ?_, .list ?_, .table ?_, List.forall_mem_nil _⟩
  · simp only [List.forall_mem_cons]
    refine ⟨.math _, .compound ?_, List.forall_mem_nil _⟩
    simp only [List.forall_mem_cons]
    exact ⟨.prose _, List.forall_mem_nil _⟩
  · simp [Block.IsFresh.passthrough]
  · simp
  · simp [Block.IsFresh.image]

theorem ofJsonText_toJsonText_allKinds :
    allKinds.IsFresh ∧ allKinds.toJson.depth ≤ maxDepth ∧
      ofJsonText (allKinds.toJsonText .pretty) = .ok allKinds ∧
      ofJsonText (allKinds.toJsonText .compact) = .ok allKinds := by
  have hdepth : allKinds.toJson.depth ≤ maxDepth := by decide +kernel
  exact ⟨isFresh_allKinds, hdepth, ofJsonText_toJsonText .pretty _ isFresh_allKinds hdepth,
    ofJsonText_toJsonText .compact _ isFresh_allKinds hdepth⟩

end Document

end DocumentMath
