import DocumentMath.Proofs.Document.Place

/-!
# Changes at different places

A change of a tree is found by going down to its place (`Subtree.exists_changed_of_update?`), and it
leaves alone what is neither around its place nor below it (`Subtree.Changed.descend?_of_apart`).
Two changes at different places come to the same in either order (`Subtree.exists_update?_both`), if
neither touches what is below its own place (`Subtree.IsLocal`). One place may be below the other:
it does not matter either whether a node is changed before or after one of its children.

A single move is like a reference to a field of a record. Of what is put there twice the second
stays (`setChild?_setChild?`), and what is put at two moves is put there in any order
(`setChild?_comm`).
-/

namespace DocumentMath

namespace Subtree

variable {t t' t₁ t₂ c c₁ e e₁ m m' : Subtree} {x y : Move} {moves others : List Move}
  {f g : Subtree → Option Subtree}

/-! ### Exchanging two children -/

/-- Of two subtrees that are put in one place, the second stays. -/
theorem setChild?_setChild? (h : IsChild t x c) (hset : t.setChild? x c₁ = some t₁)
    (c₂ : Subtree) : t₁.setChild? x c₂ = t.setChild? x c₂ := by
  cases h <;> obtain ⟨d⟩ | ⟨b | i | c⟩ := c₁ <;> cases hset <;>
    obtain ⟨d'⟩ | ⟨b' | i' | c'⟩ := c₂ <;>
      simp [setChild?, Node.setChild?, Block.children?, Block.setChildren?, Node.setInner?,
        List.modify_modify_eq, Function.comp_def]

/-- Subtrees are put in two places in any order. -/
theorem setChild?_comm (hx : IsChild t x c) (hy : IsChild t y e) (hne : x ≠ y)
    (hc : t.setChild? x c₁ = some t₁) (he : t.setChild? y e₁ = some t₂) :
    t₁.setChild? y e₁ = t₂.setChild? x c₁ := by
  cases hx <;> cases hy <;> obtain ⟨d⟩ | ⟨b | i | c⟩ := c₁ <;> cases hc <;>
    obtain ⟨d'⟩ | ⟨b' | i' | c'⟩ := e₁ <;> cases he <;>
      simp [setChild?, Node.setChild?, Block.children?, Block.setChildren?] at hne ⊢
  -- the cells may be in one row or in two
  case cell.cell.node.cell.refl.node.cell.refl row column _ _ _ _ row' column' _ _ _ _ =>
    by_cases hrow : row = row'
    · subst hrow
      rw [List.modify_modify_eq, List.modify_modify_eq]
      congr 1
      funext r
      exact congrArg TableRow.mk (List.set_comm _ _ (hne rfl))
    · exact List.modify_modify_ne _ _ _ hrow
  all_goals exact List.set_comm _ _ hne

/-! ### Finding a change -/

theorem update?_cons_eq_some_iff : t.update? f (x :: moves) = some t' ↔
    ∃ c c', IsChild t x c ∧ c.update? f moves = some c' ∧ t.setChild? x c' = some t' := by
  constructor
  · intro h
    obtain ⟨c, hc, h⟩ := Option.bind_eq_some_iff.mp h
    obtain ⟨c', hc', hset⟩ := Option.bind_eq_some_iff.mp h
    exact ⟨c, c', isChild_of_child? hc, hc', hset⟩
  · rintro ⟨c, c', hchild, hc', hset⟩
    simp only [update?, child?_of_isChild hchild, Option.bind_eq_bind, Option.bind_some, hc', hset]

/-- An update that succeeds is a change of the subtree that moves lead to. -/
theorem exists_changed_of_update? (h : t.update? f moves = some t') :
    ∃ m m', f m = some m' ∧ Changed m m' moves t t' := by
  induction moves generalizing t t' with
  | nil => exact ⟨t, t', h, .here⟩
  | cons x moves ih =>
    obtain ⟨c, c', hchild, hc', hset⟩ := update?_cons_eq_some_iff.mp h
    obtain ⟨m, m', hm, hchanged⟩ := ih hc'
    exact ⟨m, m', hm, .there hchild hset hchanged⟩

/-- A change leaves alone what is neither around its place nor below it. -/
theorem Changed.descend?_of_apart (h : Changed m m' moves t t') (haround : ¬others <+: moves)
    (hbelow : ¬moves <+: others) : t'.descend? others = t.descend? others := by
  induction h generalizing others with
  | here => exact absurd List.nil_prefix hbelow
  | @there x moves t t' c c' hchild hset h ih =>
    cases others with
    | nil => exact absurd List.nil_prefix haround
    | cons y others =>
      by_cases hy : y = x
      · subst hy
        rw [descend?, descend?, child?_of_isChild hchild, child?_setChild?_self hchild hset]
        exact ih (mt (List.cons_prefix_cons.mpr ⟨rfl, ·⟩) haround)
          (mt (List.cons_prefix_cons.mpr ⟨rfl, ·⟩) hbelow)
      · rw [descend?, descend?, child?_setChild?_ne hchild hset hy]

/-! ### Two changes -/

/-- A change of a subtree that does not touch what is below it, and that may be made before or after
a child is exchanged. -/
structure IsLocal (f : Subtree → Option Subtree) : Prop where
  sort : ∀ {t t'}, f t = some t' → SameSort t t'
  child : ∀ {t t' x c}, f t = some t' → IsChild t x c → IsChild t' x c
  setChild : ∀ {t t' t₁ x c c'}, f t = some t' → IsChild t x c → t.setChild? x c' = some t₁ →
    f t₁ = t'.setChild? x c'

namespace IsLocal

theorem sameSort_update? (hf : IsLocal f) (h : t.update? f moves = some t') : SameSort t t' := by
  obtain ⟨m, m', hm, hchanged⟩ := exists_changed_of_update? h
  exact hchanged.sameSort (hf.sort hm)

/-- A change of a node and one below it come to the same in either order. -/
theorem exists_update?_below (hf : IsLocal f) (hg : IsLocal g) (h₁ : f t = some t₁)
    (h₂ : t.update? g (y :: others) = some t₂) :
    ∃ t₃, t₁.update? g (y :: others) = some t₃ ∧ f t₂ = some t₃ := by
  obtain ⟨c, c', hchild, hc', hset⟩ := update?_cons_eq_some_iff.mp h₂
  have hchild₁ := hf.child h₁ hchild
  obtain ⟨t₃, ht₃⟩ := exists_setChild? hchild₁ (hg.sameSort_update? hc')
  exact ⟨t₃, update?_cons_eq_some_iff.mpr ⟨c, c', hchild₁, hc', ht₃⟩,
    (hf.setChild h₁ hchild hset).trans ht₃⟩

end IsLocal

/-- Two changes at different places come to the same in either order. -/
theorem exists_update?_both (hf : IsLocal f) (hg : IsLocal g) (hne : moves ≠ others)
    (h₁ : t.update? f moves = some t₁) (h₂ : t.update? g others = some t₂) :
    ∃ t₃, t₁.update? g others = some t₃ ∧ t₂.update? f moves = some t₃ := by
  -- the induction follows both ways as long as they are the same
  induction moves generalizing t t₁ t₂ others with
  | nil =>
    cases others with
    | nil => exact absurd rfl hne
    | cons y others => exact hf.exists_update?_below hg h₁ h₂
  | cons x moves ih =>
    cases others with
    | nil =>
      obtain ⟨t₃, ht₂, ht₁⟩ := hg.exists_update?_below hf h₂ h₁
      exact ⟨t₃, ht₁, ht₂⟩
    | cons y others =>
      obtain ⟨c, c₁, hx, hc₁, hset₁⟩ := update?_cons_eq_some_iff.mp h₁
      obtain ⟨e, e₁, hy, he₁, hset₂⟩ := update?_cons_eq_some_iff.mp h₂
      by_cases hxy : x = y
      · -- both changes are in one child
        subst hxy
        obtain rfl := Option.some.inj ((child?_of_isChild hx).symm.trans (child?_of_isChild hy))
        obtain ⟨c₃, hc₃, he₃⟩ := ih (fun heq ↦ hne (congrArg _ heq)) hc₁ he₁
        have hx₁ := isChild_of_child? (child?_setChild?_self hx hset₁)
        have hx₂ := isChild_of_child? (child?_setChild?_self hx hset₂)
        obtain ⟨t₃, ht₃⟩ := exists_setChild? hx₁ (hg.sameSort_update? hc₃)
        refine ⟨t₃, update?_cons_eq_some_iff.mpr ⟨c₁, c₃, hx₁, hc₃, ht₃⟩,
          update?_cons_eq_some_iff.mpr ⟨e₁, c₃, hx₂, he₃, ?_⟩⟩
        rw [setChild?_setChild? hx hset₂, ← setChild?_setChild? hx hset₁, ht₃]
      · -- each change leaves the child of the other as it is
        have hy₁ := isChild_of_child?
          ((child?_setChild?_ne hx hset₁ (Ne.symm hxy)).trans (child?_of_isChild hy))
        have hx₂ := isChild_of_child?
          ((child?_setChild?_ne hy hset₂ hxy).trans (child?_of_isChild hx))
        obtain ⟨t₃, ht₃⟩ := exists_setChild? hy₁ (hg.sameSort_update? he₁)
        refine ⟨t₃, update?_cons_eq_some_iff.mpr ⟨e, e₁, hy₁, he₁, ht₃⟩,
          update?_cons_eq_some_iff.mpr ⟨c, c₁, hx₂, hc₁, ?_⟩⟩
        rw [← setChild?_comm hx hy hxy hset₁ hset₂, ht₃]

end Subtree

end DocumentMath
