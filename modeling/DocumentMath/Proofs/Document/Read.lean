import DocumentMath.Document.Reading
import DocumentMath.Proofs.Document.Decoding
import DocumentMath.Proofs.Document.Place
import DocumentMath.Proofs.Fallible

/-!
# Documents that have been read

A document that has been read is fresh: wherever a section stands in it, also in a list item or in
the document of a table cell, its converted title is not known (`Document.isFresh_of_ofJsonText`).
For every section has been decoded from a value, and a value does not hold a converted title.
-/

namespace DocumentMath

open Json
open Fallible (bind_eq_ok)

/-! ### Fresh trees -/

namespace Subtree

/-- No section in the tree knows its converted title. -/
def IsFresh : Subtree → Prop
  | document d => d.IsFresh
  | node (.block b) => b.IsFresh
  | node (.item i) => ∀ b ∈ i.blocks, b.IsFresh
  | node (.cell c) => ∀ d ∈ c.inner, d.IsFresh

theorem IsFresh.child {t c : Subtree} {x : Move} (h : t.IsFresh) (hchild : IsChild t x c) :
    c.IsFresh := by
  cases hchild with
  | block hb => exact h _ (List.mem_of_getElem? hb)
  | blockOfSection hb =>
    cases h with
    | sect _ h => exact h _ (List.mem_of_getElem? hb)
  | blockOfCompound hb =>
    cases h with
    | compound h => exact h _ (List.mem_of_getElem? hb)
  | blockOfItem hb => exact h _ (List.mem_of_getElem? hb)
  | item hi =>
    cases h with
    | list h => exact h _ (List.mem_of_getElem? hi)
  | cell hrow hcell =>
    cases h with
    | table h => exact h _ (List.mem_of_getElem? hrow) _ (List.mem_of_getElem? hcell)
  | inner => exact h _ rfl

theorem IsFresh.descend? {t m : Subtree} {moves : List Move} (h : t.IsFresh)
    (hm : t.descend? moves = some m) : m.IsFresh := by
  induction moves generalizing t with
  | nil =>
    cases hm
    exact h
  | cons x moves ih =>
    obtain ⟨c, hc, hm⟩ := Option.bind_eq_some_iff.mp hm
    exact ih (h.child (isChild_of_child? hc)) hm

end Subtree

/-- No section of a fresh document knows its converted title. -/
theorem Document.IsFresh.converted_eq_none {d : Document} (h : d.IsFresh) {within : List NodePath}
    {path : NodePath} {s : Section} (hs : d.nodeIn? within path = some (.block (.sect s))) :
    s.converted = none := by
  have hsect : (Block.sect s).IsFresh :=
    Subtree.IsFresh.descend? (t := .document d) h (descend?_of_nodeIn? hs)
  cases hsect with
  | sect hconverted _ => exact hconverted

/-! ### What a value is decoded to -/

namespace Json

variable {α β : Type} {f : Json → Option α} {j : Json}

theorem exists_of_mem_mapM {f : β → Option α} {bs : List β} {as : List α}
    (h : bs.mapM f = some as) : ∀ a ∈ as, ∃ b, f b = some a := by
  induction bs generalizing as with
  | nil =>
    cases h
    exact List.forall_mem_nil _
  | cons b bs ih =>
    rw [List.mapM_cons] at h
    obtain ⟨a, ha, h⟩ := Option.bind_eq_some_iff.mp h
    obtain ⟨as, has, h⟩ := Option.bind_eq_some_iff.mp h
    cases h
    exact List.forall_mem_cons.mpr ⟨⟨b, ha⟩, ih has⟩

/-- The members of a list have been decoded each from a value. -/
theorem exists_of_mem_list? {as : List α} (h : list? f j = some as) :
    ∀ a ∈ as, ∃ j', f j' = some a := by
  cases j with
  | array js => exact exists_of_mem_mapM h
  | _ => cases h

theorem exists_of_mem_required? {field? : Option Json} {as : List α}
    (h : required? (list? f) field? = some as) : ∀ a ∈ as, ∃ j', f j' = some a := by
  obtain ⟨j, -, hj⟩ := Option.bind_eq_some_iff.mp h
  exact exists_of_mem_list? hj

theorem exists_of_mem_withDefault? {field? : Option Json} {as : List α}
    (h : withDefault? [] (list? f) field? = some as) : ∀ a ∈ as, ∃ j', f j' = some a := by
  cases field? with
  | none =>
    cases h
    exact List.forall_mem_nil _
  | some j => exact exists_of_mem_list? h

theorem exists_of_mem_optional? {field? : Option Json} {a? : Option α}
    (h : optional? f field? = some a?) : ∀ a ∈ a?, ∃ j', f j' = some a := by
  rintro a rfl
  cases field? with
  | none => cases h
  | some j =>
    cases j
    case null => cases h
    all_goals
      obtain ⟨a', ha', heq⟩ := Option.map_eq_some_iff.mp h
      cases heq
      exact ⟨_, ha'⟩

end Json

/-! ### Decoded blocks -/

section Containers

variable {block? : Json → Option Block} {j : Json}
  (hblock : ∀ j b, block? j = some b → b.IsFresh)
include hblock

theorem isFresh_of_decoded {bs : List Block} (h : ∀ b ∈ bs, ∃ j, block? j = some b) :
    ∀ b ∈ bs, b.IsFresh :=
  fun b hb ↦ (h b hb).elim fun j hj ↦ hblock j b hj

theorem ListItem.isFresh_of_ofJsonWith? {i : ListItem} (h : ofJsonWith? block? j = some i) :
    ∀ b ∈ i.blocks, b.IsFresh := by
  obtain ⟨fields, -, h⟩ := Option.bind_eq_some_iff.mp h
  split at h
  · obtain ⟨text, -, h⟩ := Option.bind_eq_some_iff.mp h
    obtain ⟨blocks, hblocks, h⟩ := Option.bind_eq_some_iff.mp h
    cases h
    exact isFresh_of_decoded hblock (exists_of_mem_withDefault? hblocks)
  · cases h

theorem ItemList.isFresh_of_ofJsonWith? {l : ItemList} (h : ofJsonWith? block? j = some l) :
    (Block.list l).IsFresh := by
  obtain ⟨fields, -, h⟩ := Option.bind_eq_some_iff.mp h
  split at h
  · obtain ⟨id, -, h⟩ := Option.bind_eq_some_iff.mp h
    obtain ⟨title, -, h⟩ := Option.bind_eq_some_iff.mp h
    obtain ⟨style, -, h⟩ := Option.bind_eq_some_iff.mp h
    obtain ⟨items, hitems, h⟩ := Option.bind_eq_some_iff.mp h
    cases h
    refine .list fun i hi ↦ ?_
    obtain ⟨j', hj'⟩ := exists_of_mem_required? hitems i hi
    exact i.isFresh_of_ofJsonWith? hblock hj'
  · cases h

theorem Section.isFresh_of_ofJsonWith? {s : Section} (h : ofJsonWith? block? j = some s) :
    (Block.sect s).IsFresh := by
  obtain ⟨fields, -, h⟩ := Option.bind_eq_some_iff.mp h
  split at h
  · obtain ⟨id, -, h⟩ := Option.bind_eq_some_iff.mp h
    obtain ⟨level, -, h⟩ := Option.bind_eq_some_iff.mp h
    obtain ⟨title, -, h⟩ := Option.bind_eq_some_iff.mp h
    obtain ⟨blocks, hblocks, h⟩ := Option.bind_eq_some_iff.mp h
    cases h
    exact .sect rfl (isFresh_of_decoded hblock (exists_of_mem_withDefault? hblocks))
  · cases h

theorem CompoundBlock.isFresh_of_ofJsonWith? {c : CompoundBlock}
    (h : ofJsonWith? block? j = some c) : (Block.compound c).IsFresh := by
  obtain ⟨fields, -, h⟩ := Option.bind_eq_some_iff.mp h
  split at h
  · obtain ⟨id, -, h⟩ := Option.bind_eq_some_iff.mp h
    obtain ⟨title, -, h⟩ := Option.bind_eq_some_iff.mp h
    obtain ⟨context, -, h⟩ := Option.bind_eq_some_iff.mp h
    obtain ⟨blocks, hblocks, h⟩ := Option.bind_eq_some_iff.mp h
    cases h
    exact .compound (isFresh_of_decoded hblock (exists_of_mem_withDefault? hblocks))
  · cases h

theorem Document.isFresh_of_ofJsonWith? {d : Document} (h : ofJsonWith? block? j = some d) :
    d.IsFresh := by
  obtain ⟨fields, -, h⟩ := Option.bind_eq_some_iff.mp h
  split at h
  · obtain ⟨attributes, -, h⟩ := Option.bind_eq_some_iff.mp h
    obtain ⟨blocks, hblocks, h⟩ := Option.bind_eq_some_iff.mp h
    cases h
    exact isFresh_of_decoded hblock (exists_of_mem_withDefault? hblocks)
  · cases h

theorem TableCell.isFresh_of_ofJsonWith? {c : TableCell} (h : ofJsonWith? block? j = some c) :
    ∀ d ∈ c.inner, d.IsFresh := by
  obtain ⟨fields, -, h⟩ := Option.bind_eq_some_iff.mp h
  split at h
  · obtain ⟨style, -, h⟩ := Option.bind_eq_some_iff.mp h
    obtain ⟨text, -, h⟩ := Option.bind_eq_some_iff.mp h
    obtain ⟨inner, hinner, h⟩ := Option.bind_eq_some_iff.mp h
    obtain ⟨rowspan, -, h⟩ := Option.bind_eq_some_iff.mp h
    obtain ⟨colspan, -, h⟩ := Option.bind_eq_some_iff.mp h
    cases h
    intro d hd
    obtain ⟨j', hj'⟩ := exists_of_mem_optional? hinner d hd
    exact d.isFresh_of_ofJsonWith? hblock hj'
  · cases h

theorem TableRow.isFresh_of_ofJsonWith? {r : TableRow} (h : ofJsonWith? block? j = some r) :
    ∀ c ∈ r.cells, ∀ d ∈ c.inner, d.IsFresh := by
  obtain ⟨fields, -, h⟩ := Option.bind_eq_some_iff.mp h
  split at h
  · obtain ⟨cells, hcells, h⟩ := Option.bind_eq_some_iff.mp h
    cases h
    intro c hc
    obtain ⟨j', hj'⟩ := exists_of_mem_required? hcells c hc
    exact c.isFresh_of_ofJsonWith? hblock hj'
  · cases h

theorem Table.isFresh_of_ofJsonWith? {t : Table} (h : ofJsonWith? block? j = some t) :
    (Block.table t).IsFresh := by
  obtain ⟨fields, -, h⟩ := Option.bind_eq_some_iff.mp h
  split at h
  · obtain ⟨id, -, h⟩ := Option.bind_eq_some_iff.mp h
    obtain ⟨title, -, h⟩ := Option.bind_eq_some_iff.mp h
    obtain ⟨rows, hrows, h⟩ := Option.bind_eq_some_iff.mp h
    obtain ⟨headerRows, -, h⟩ := Option.bind_eq_some_iff.mp h
    cases h
    refine .table fun r hr ↦ ?_
    obtain ⟨j', hj'⟩ := exists_of_mem_required? hrows r hr
    exact r.isFresh_of_ofJsonWith? hblock hj'
  · cases h

theorem Block.isFresh_of_ofFieldsWith? {typeName : String} {b : Block}
    (h : ofFieldsWith? block? typeName j = some b) : b.IsFresh := by
  unfold ofFieldsWith? at h
  split at h
  case h_9 => cases h
  all_goals obtain ⟨decoded, hdecoded, rfl⟩ := Option.map_eq_some_iff.mp h
  · exact .math _
  · exact .prose _
  · exact decoded.isFresh_of_ofJsonWith? hblock hdecoded
  · exact decoded.isFresh_of_ofJsonWith? hblock hdecoded
  · exact decoded.isFresh_of_ofJsonWith? hblock hdecoded
  · exact decoded.isFresh_of_ofJsonWith? hblock hdecoded
  · exact .image _
  · exact .passthrough _

end Containers

theorem Block.isFresh_of_ofJsonWithin? {levels : Nat} :
    ∀ j b, ofJsonWithin? levels j = some b → b.IsFresh := by
  induction levels with
  | zero =>
    intro j b h
    cases h
  | succ levels ih =>
    intro j b h
    obtain ⟨⟨typeName, j'⟩, -, hb⟩ := Option.bind_eq_some_iff.mp h
    exact isFresh_of_ofFieldsWith? ih hb

/-! ### Reading from a text -/

/-- The elements of an array that has been read have been read one by one. -/
theorem Json.exists_of_mem_elements {α : Type} {element : Reader α} {steps : Nat} {first : Bool}
    {as : List α} {cs rest : List Char} (h : elements element steps first cs = .ok (as, rest)) :
    ∀ a ∈ as, ∃ cs' rest', element cs' = .ok (a, rest') := by
  induction steps generalizing first as cs with
  | zero => cases h
  | succ steps ih =>
    obtain ⟨⟨another, cs₁⟩, -, h⟩ := bind_eq_ok h
    cases another with
    | false =>
      cases h
      exact List.forall_mem_nil _
    | true =>
      obtain ⟨⟨a, cs₂⟩, ha, h⟩ := bind_eq_ok h
      obtain ⟨⟨as', cs₃⟩, has, h⟩ := bind_eq_ok h
      cases h
      exact List.forall_mem_cons.mpr ⟨⟨cs₁, cs₂, ha⟩, ih has⟩

namespace Document

theorem mismatch_ne_ok {α : Type} {cs : List Char} {a : α} : mismatch cs ≠ .ok a := by
  intro h
  unfold mismatch at h
  split at h
  · cases h
  · cases h
  · obtain ⟨_, -, h⟩ := bind_eq_ok h
    cases h

theorem shaped_eq_ok {α : Type} {a? : Option α} {a : α} (h : shaped a? = .ok a) : a? = some a := by
  cases a? with
  | none => cases h
  | some b => exact congrArg some (Except.ok.inj h)

theorem isFresh_of_readBlock {b : Block} {cs rest : List Char}
    (h : readBlock cs = .ok (b, rest)) : b.IsFresh := by
  rw [readBlock] at h
  split at h
  · obtain ⟨⟨⟨type?, ms⟩, cs₁⟩, -, h⟩ := bind_eq_ok h
    obtain ⟨typeName, -, h⟩ := bind_eq_ok h
    obtain ⟨b, hb, h⟩ := bind_eq_ok h
    cases h
    exact Block.isFresh_of_ofFieldsWith? Block.isFresh_of_ofJsonWithin? (shaped_eq_ok hb)
  · obtain ⟨⟨⟨typeName, js⟩, cs₁⟩, -, h⟩ := bind_eq_ok h
    obtain ⟨b, hb, h⟩ := bind_eq_ok h
    cases h
    exact Block.isFresh_of_ofFieldsWith? Block.isFresh_of_ofJsonWithin? (shaped_eq_ok hb)
  · exact absurd h mismatch_ne_ok

theorem isFresh_of_readBlocks {bs : List Block} {cs rest : List Char}
    (h : readBlocks cs = .ok (bs, rest)) : ∀ b ∈ bs, b.IsFresh := by
  rw [readBlocks] at h
  split at h
  · intro b hb
    obtain ⟨cs', rest', hread⟩ := Json.exists_of_mem_elements h b hb
    exact isFresh_of_readBlock hread
  · exact absurd h mismatch_ne_ok

/-- The blocks that have been read so far are fresh. -/
def Members.IsFresh (m : Members) : Prop :=
  ∀ bs ∈ m.blocks?, ∀ b ∈ bs, b.IsFresh

theorem Members.IsFresh.document {m : Members} (h : m.IsFresh) : m.document.IsFresh := by
  intro b hb
  obtain ⟨attributes?, blocks?⟩ := m
  cases blocks? with
  | none => exact absurd hb List.not_mem_nil
  | some bs => exact h bs rfl b hb

theorem isFresh_of_readMembers {steps : Nat} {first : Bool} {m m' : Members}
    {cs rest : List Char} (hm : m.IsFresh) (h : readMembers steps first m cs = .ok (m', rest)) :
    m'.IsFresh := by
  induction steps generalizing first m cs with
  | zero => cases h
  | succ steps ih =>
    rw [readMembers] at h
    obtain ⟨⟨another, cs₁⟩, -, h⟩ := bind_eq_ok h
    cases another with
    | false =>
      cases h
      exact hm
    | true =>
      obtain ⟨⟨name, cs₂⟩, -, h⟩ := bind_eq_ok h
      simp only at h
      split at h
      · split at h
        · cases h
        · obtain ⟨cs₃, -, h⟩ := bind_eq_ok h
          obtain ⟨⟨attributes, cs₄⟩, -, h⟩ := bind_eq_ok h
          have hm' : Members.IsFresh { m with attributes? := some attributes } := hm
          exact ih hm' h
      · split at h
        · split at h
          · cases h
          · obtain ⟨cs₃, -, h⟩ := bind_eq_ok h
            obtain ⟨⟨blocks, cs₄⟩, hblocks, h⟩ := bind_eq_ok h
            refine ih ?_ h
            rintro bs ⟨⟩
            exact isFresh_of_readBlocks hblocks
        · obtain ⟨cs₃, -, h⟩ := bind_eq_ok h
          obtain ⟨cs₄, -, h⟩ := bind_eq_ok h
          exact ih hm h

theorem isFresh_of_readElements {m : Members} {cs rest : List Char}
    (h : readElements cs = .ok (m, rest)) : m.IsFresh := by
  have hnone : ∀ attributes?, Members.IsFresh ⟨attributes?, none⟩ :=
    fun _ bs hbs ↦ absurd hbs (Option.not_mem_none bs)
  obtain ⟨⟨another, cs₁⟩, -, h⟩ := bind_eq_ok h
  cases another with
  | false =>
    cases h
    exact hnone _
  | true =>
    obtain ⟨⟨attributes, cs₂⟩, -, h⟩ := bind_eq_ok h
    obtain ⟨⟨another, cs₃⟩, -, h⟩ := bind_eq_ok h
    cases another with
    | false =>
      cases h
      exact hnone _
    | true =>
      obtain ⟨⟨blocks, cs₄⟩, hblocks, h⟩ := bind_eq_ok h
      obtain ⟨cs₅, -, h⟩ := bind_eq_ok h
      cases h
      rintro bs ⟨⟩
      exact isFresh_of_readBlocks hblocks

theorem isFresh_of_readDocument {d : Document} {cs rest : List Char}
    (h : readDocument cs = .ok (d, rest)) : d.IsFresh := by
  rw [readDocument] at h
  split at h
  · obtain ⟨⟨m, cs₁⟩, hm, h⟩ := bind_eq_ok h
    cases h
    have hinitial : Members.IsFresh ⟨none, none⟩ :=
      fun bs hbs ↦ absurd hbs (Option.not_mem_none bs)
    exact (isFresh_of_readMembers hinitial hm).document
  · obtain ⟨⟨m, cs₁⟩, hm, h⟩ := bind_eq_ok h
    cases h
    exact (isFresh_of_readElements hm).document
  · exact absurd h mismatch_ne_ok

/-- **What has been read is fresh.** -/
theorem isFresh_of_ofJsonText {text : String} {d : Document} (h : ofJsonText text = .ok d) :
    d.IsFresh := by
  obtain ⟨⟨d', rest⟩, hread, h⟩ := bind_eq_ok h
  simp only at h
  split at h
  · cases h
    exact isFresh_of_readDocument hread
  · cases h

end Document

end DocumentMath
