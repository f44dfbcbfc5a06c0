import DocumentMath.Proofs.Path.Normal
import Mathlib.Data.List.Induction

/-!
# Normal forms, and joining

A path in normal form has no `.` and no `..` that could be folded, and its text has only what its
components need (`IsNormalForm`). Apart from the path `.`, these are exactly the paths that
normalizing leaves as they are (`normalize_eq_self_iff`).

Two paths may be normalized before they are joined (`normalize_respects_join`). Of an absolute path
nothing else is left of the join; for a relative one it has to be seen that what its normal form
does to a stack is what the path itself does, whatever is on the stack
(`foldl_pushNormal_components_normalize`). This goes step by step: what is pushed last on the one
stack may as well be pushed on the other, where the first has been put before
(`foldl_pushNormal_reverse_push`).
-/

namespace DocumentMath.Path

/-! ### Normal forms -/

/-- A path with nothing to fold. -/
structure IsNormalForm (p : Path) : Prop where
  /-- It leads somewhere. -/
  nonempty : p.components ≠ []
  /-- It is written as its components are when they are pushed one after the other. -/
  written : ofComponents p.components = p
  /-- It has no `.`. -/
  current : .current ∉ p.components
  /-- Only others stand in front of a `..`, neither a name nor the root. -/
  parents : p.components.Pairwise fun c d ↦ d = .parent → c = .parent

theorem IsNormal.current_not_mem {stack : List Component} (h : IsNormal stack) :
    .current ∉ stack := by
  induction h with
  | root => decide
  | parents n => exact fun hmem ↦ absurd (List.eq_of_mem_replicate hmem) (by decide)
  | name _ _ ih => simp [ih]

/-- Only `..` lie below a `..`. -/
theorem IsNormal.pairwise {stack : List Component} (h : IsNormal stack) :
    stack.Pairwise fun d c ↦ d = .parent → c = .parent := by
  induction h with
  | root => exact List.pairwise_singleton _ _
  | parents n => exact List.pairwise_replicate.mpr (.inr id)
  | name _ _ ih => simpa using ih

/-- A path that leads nowhere is written as a `.`. -/
theorem components_normalize_of_stack_eq_nil {p : Path} (h : p.stack = []) :
    p.normalize.components = [.current] := by
  rw [normalize_of_stack_eq_nil h]
  decide +kernel

/-- A path that leads somewhere is normalized to one in normal form. -/
theorem isNormalForm_normalize {p : Path} (h : p.stack ≠ []) : p.normalize.IsNormalForm := by
  have hcomponents := components_normalize h
  constructor
  · rw [hcomponents]
    exact fun hnil ↦ h (List.reverse_eq_nil_iff.mp hnil)
  · rw [hcomponents, normalize_of_stack_ne_nil h]
  · rw [hcomponents, List.mem_reverse]
    exact p.isNormal_stack.current_not_mem
  · rw [hcomponents, List.pairwise_reverse]
    exact p.isNormal_stack.pairwise

theorem IsWritten.of_concat {cs : List Component} {c : Component} (h : IsWritten (cs ++ [c])) :
    IsWritten cs ∧ c.IsFirst ∧ (cs = [] ∨ c.IsInner) := by
  cases cs with
  | nil =>
    cases h with
    | cons hfirst _ => exact ⟨.nil, hfirst, .inl rfl⟩
  | cons first rest =>
    cases h with
    | cons hfirst hrest =>
      obtain ⟨hrest, hinner⟩ := List.forall_mem_append.mp hrest
      have hc : c.IsInner := hinner c List.mem_cons_self
      exact ⟨.cons hfirst hrest, .inner hc, .inr hc⟩

/-- Components with nothing to fold make a stack with nothing to fold. -/
theorem isNormal_reverse {cs : List Component} (h : IsWritten cs) (hcurrent : .current ∉ cs)
    (hparents : cs.Pairwise fun c d ↦ d = .parent → c = .parent) : IsNormal cs.reverse := by
  induction cs using List.reverseRecOn with
  | nil => exact .parents 0
  | append_singleton cs c ih =>
    obtain ⟨hwritten, hfirst, hinner⟩ := h.of_concat
    rw [List.mem_append, not_or] at hcurrent
    obtain ⟨hpairwise, -, hbefore⟩ := List.pairwise_append.mp hparents
    rw [List.reverse_append, List.reverse_singleton, List.singleton_append]
    cases hfirst with
    | root =>
      rcases hinner with rfl | hinner
      · exact .root
      · exact absurd rfl hinner.ne_root
    | current => exact absurd List.mem_cons_self hcurrent.2
    | inner hc =>
      cases hc with
      | parent =>
        have hall : cs = List.replicate cs.length .parent :=
          List.eq_replicate_of_mem fun c hc ↦ hbefore c hc _ List.mem_cons_self rfl
        rw [hall, List.reverse_replicate]
        exact .parents (cs.length + 1)
      | name htext => exact .name htext (ih hwritten hcurrent.1 hpairwise)

/-- A path in normal form is left as it is. -/
theorem IsNormalForm.normalize_eq {p : Path} (h : p.IsNormalForm) : p.normalize = p := by
  have hnormal : IsNormal p.components.reverse :=
    isNormal_reverse (componentsOf_isWritten p.text.toList) h.current h.parents
  have hstack : p.stack = p.components.reverse := by
    rw [← foldl_pushNormal_reverse hnormal, List.reverse_reverse]
    rfl
  have hne : p.stack ≠ [] := fun hnil ↦
    h.nonempty (List.reverse_eq_nil_iff.mp (hstack.symm.trans hnil))
  rw [normalize_of_stack_ne_nil hne, hstack, List.reverse_reverse, h.written]

/-- **The normal forms are the paths that normalizing leaves as they are**, apart from `.`. -/
theorem normalize_eq_self_iff {p : Path} : p.normalize = p ↔ p = ⟨"."⟩ ∨ p.IsNormalForm := by
  constructor
  · intro h
    by_cases hnil : p.stack = []
    · exact .inl (h.symm.trans (normalize_of_stack_eq_nil hnil))
    · exact .inr (h ▸ isNormalForm_normalize hnil)
  · rintro (rfl | h)
    · decide +kernel
    · exact h.normalize_eq

/-! ### Absolute and relative paths -/

theorem root_not_mem_pushNormal {stack : List Component} {c : Component}
    (h : .root ∉ stack) (hc : c.IsInner) : .root ∉ pushNormal stack c := by
  unfold pushNormal
  split
  · exact h
  · split
    · exact fun hmem ↦ h (List.mem_cons_of_mem _ hmem)
    · exact h
    · simpa using h
  · simpa [hc.ne_root.symm] using h

theorem root_not_mem_stack {p : Path} (h : p.isAbsolute = false) : .root ∉ p.stack := by
  rw [stack, components, foldl_pushNormal_of_relative (isAbsolute_eq_false_iff.mp h)]
  have hpush : ∀ stack c, .root ∉ stack → c.IsInner → .root ∉ pushNormal stack c :=
    fun _ _ ↦ root_not_mem_pushNormal
  exact foldl_pushNormal_induction hpush (fun _ ↦ isInner_of_mem_below) List.not_mem_nil

theorem root_not_mem_components_normalize {p : Path} (h : p.isAbsolute = false) :
    .root ∉ p.normalize.components := by
  by_cases hnil : p.stack = []
  · rw [components_normalize_of_stack_eq_nil hnil]
    decide
  · rw [components_normalize hnil, List.mem_reverse]
    exact root_not_mem_stack h

/-- The normal form of a path is absolute if the path is. -/
theorem isAbsolute_normalize (p : Path) : p.normalize.isAbsolute = p.isAbsolute := by
  cases h : p.isAbsolute with
  | true => exact isAbsolute_normalize_of_isRooted (isRooted_stack h)
  | false =>
    rw [← Bool.not_eq_true, isAbsolute_iff_head?_components]
    exact fun hroot ↦ root_not_mem_components_normalize h (List.mem_of_head? hroot)

/-! ### Normalizing in front of joining -/

/-- What is pushed last on a stack may be pushed on another one instead, onto which the first has
been put. A `..` that takes a name away from the first takes it away there. -/
theorem foldl_pushNormal_reverse_push {stack : List Component} (hstack : .root ∉ stack)
    {c : Component} (hc : c.IsInner) (base : List Component) :
    (pushNormal stack c).reverse.foldl pushNormal base
      = pushNormal (stack.reverse.foldl pushNormal base) c := by
  have hpushed : (c :: stack).reverse.foldl pushNormal base
      = pushNormal (stack.reverse.foldl pushNormal base) c := by
    rw [List.reverse_cons, List.foldl_append]
    rfl
  cases hc with
  | name _ => exact hpushed
  | parent =>
    cases stack with
    | nil => exact hpushed
    | cons d rest =>
      cases d with
      | name text =>
        rw [List.reverse_cons, List.foldl_append]
        rfl
      | root => exact absurd List.mem_cons_self hstack
      | current | parent => exact hpushed

theorem foldl_pushNormal_reverse_foldl {cs : List Component} (hcs : ∀ c ∈ cs, c.IsInner)
    {stack : List Component} (hstack : .root ∉ stack) (base : List Component) :
    (cs.foldl pushNormal stack).reverse.foldl pushNormal base
      = cs.foldl pushNormal (stack.reverse.foldl pushNormal base) := by
  induction cs generalizing stack with
  | nil => rfl
  | cons c cs ih =>
    rw [List.forall_mem_cons] at hcs
    rw [List.foldl_cons, List.foldl_cons, ih hcs.2 (root_not_mem_pushNormal hstack hcs.1),
      foldl_pushNormal_reverse_push hstack hcs.1]

/-- A relative path and its normal form do the same to any stack. -/
theorem foldl_pushNormal_components_normalize {p : Path} (h : p.isAbsolute = false)
    (base : List Component) :
    p.normalize.components.foldl pushNormal base = p.components.foldl pushNormal base := by
  have hslash := isAbsolute_eq_false_iff.mp h
  have hstack : p.stack.reverse.foldl pushNormal base = p.components.foldl pushNormal base := by
    rw [stack, components, foldl_pushNormal_of_relative hslash,
      foldl_pushNormal_of_relative hslash]
    exact foldl_pushNormal_reverse_foldl (fun _ ↦ isInner_of_mem_below) List.not_mem_nil base
  rw [← hstack]
  by_cases hnil : p.stack = []
  · -- the `.` that is written pushes nothing
    rw [components_normalize_of_stack_eq_nil hnil, hnil]
    rfl
  · rw [components_normalize hnil]

theorem stack_normalize_join_normalize (base p : Path) :
    (base.normalize.join p.normalize).stack = (base.join p).stack := by
  have habsolute := p.isAbsolute_normalize
  cases h : p.isAbsolute with
  | true =>
    rw [h] at habsolute
    rw [join_of_isAbsolute habsolute, join_of_isAbsolute h, stack_normalize]
  | false =>
    rw [h] at habsolute
    rw [stack_join habsolute, stack_join h, stack_normalize,
      foldl_pushNormal_components_normalize h]

theorem normalize_eq_iff {p q : Path} : p.normalize = q.normalize ↔ p.stack = q.stack := by
  refine ⟨fun h ↦ ?_, normalize_eq_of_stack_eq⟩
  rw [← stack_normalize p, h, stack_normalize]

theorem normalize_eq_current_iff {p : Path} : p.normalize = ⟨"."⟩ ↔ p.stack = [] := by
  refine ⟨fun h ↦ ?_, normalize_of_stack_eq_nil⟩
  rw [← stack_normalize p, h]
  decide +kernel

/-! ### Main results -/

/-- **Normalizing gives a normal form, and respects joining.** -/
theorem normalize_respects_join (p : Path) :
    p.normalize.isAbsolute = p.isAbsolute ∧
    (p.normalize = ⟨"."⟩ ∨ p.normalize.IsNormalForm) ∧
    p.normalize.normalize = p.normalize ∧
    ∀ base : Path, (base.join p).normalize = (base.normalize.join p.normalize).normalize :=
  ⟨p.isAbsolute_normalize, normalize_eq_self_iff.mp p.normalize_normalize, p.normalize_normalize,
    fun base ↦ normalize_eq_of_stack_eq (stack_normalize_join_normalize base p).symm⟩

end DocumentMath.Path
