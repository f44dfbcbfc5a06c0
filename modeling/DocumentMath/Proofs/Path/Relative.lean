import DocumentMath.Proofs.Path.NormalForm
import Mathlib.Data.Set.List

/-!
# Relative paths

The relative path between two directories leaves what only the first has and enters what only the
second has. Seen from the first it leads to the second, if what is left are names, since each `..`
takes one name away (`stack_join_relative_of_names`). For absolute directories this is always so
(`stack_join_relative`).

For relative directories there are two exceptions. What leaves a `..` is not known, and there is no
way back over one. And a `.` counts as a component here, though there is nothing to leave: the way
from `.` to anything else goes up first and misses the target (`stack_join_relative_of_current`).
So the way leads where it should exactly if it does not start from `.` (`relative_leads_iff`).
-/

namespace DocumentMath.Path

/-! ### Steps -/

/-- What two lists have in common stands in front of what is left of them. -/
theorem dropCommon_append (as bs : List Component) :
    ∃ common, as = common ++ (dropCommon as bs).1 ∧ bs = common ++ (dropCommon as bs).2 := by
  induction as generalizing bs with
  | nil => exact ⟨[], rfl, rfl⟩
  | cons a as ih =>
    cases bs with
    | nil => exact ⟨[], rfl, rfl⟩
    | cons b bs =>
      rw [dropCommon]
      split
      · next hab =>
        obtain ⟨common, has, hbs⟩ := ih bs
        refine ⟨a :: common, ?_, ?_⟩
        · rw [List.cons_append, ← has]
        · rw [List.cons_append, ← hbs, hab]
      · exact ⟨[], rfl, rfl⟩

/-- Steps up take as many names away. -/
theorem foldl_pushNormal_up (names : List (List Char)) (stack : List Component) :
    (List.replicate names.length Component.parent).foldl pushNormal (names.map .name ++ stack)
      = stack := by
  induction names with
  | nil => rfl
  | cons name names ih => exact ih

/-- Names are put on top. -/
theorem foldl_pushNormal_down (names : List (List Char)) (stack : List Component) :
    (names.map Component.name).foldl pushNormal stack = (names.map .name).reverse ++ stack := by
  induction names generalizing stack with
  | nil => rfl
  | cons name names ih =>
    rw [List.map_cons, List.foldl_cons, ih, List.reverse_cons, List.append_assoc]
    rfl

/-- One step up for each name takes back what the names have put on a stack. -/
theorem foldl_pushNormal_back {up : List Component} (hup : ∀ c ∈ up, ∃ text, c = .name text)
    (stack : List Component) :
    (up.map fun _ ↦ Component.parent).foldl pushNormal (up.foldl pushNormal stack) = stack := by
  obtain ⟨names, rfl⟩ : ∃ names : List (List Char), names.map .name = up :=
    (Set.range_list_map Component.name).ge fun c hc ↦ (hup c hc).imp fun _ ↦ Eq.symm
  have hparents : (names.map Component.name).map (fun _ ↦ Component.parent)
      = List.replicate names.reverse.length .parent := by
    rw [List.map_map, List.length_reverse]
    exact List.map_const'
  rw [hparents, foldl_pushNormal_down, ← List.map_reverse, foldl_pushNormal_up]

/-- The path of steps that are pushed one after the other, or a `.` if there are none. -/
def ofSteps (steps : List Component) : Path :=
  match textOf steps with
  | [] => ⟨"."⟩
  | cs => ⟨String.ofList cs⟩

/-- The way between two directories leaves what is left of the one and enters what is left of the
other. -/
theorem relative_eq {source target : Path} {up down : List Component}
    (h : dropCommon source.normalize.components target.normalize.components = (up, down)) :
    relative source target = ofSteps (up.map (fun _ ↦ .parent) ++ down) := by
  rw [relative, h]
  rfl

/-! ### Reading steps back -/

/-- A component that may be pushed onto a text as a step: any but the root. -/
def Component.IsStep (c : Component) : Prop :=
  c.IsFirst ∧ c ≠ .root

namespace Component.IsStep

variable {c : Component}

theorem head?_text_ne (h : c.IsStep) : c.text.head? ≠ some '/' := by
  obtain ⟨hfirst, hroot⟩ := h
  cases hfirst with
  | root => exact absurd rfl hroot
  | current => decide
  | inner h => exact h.head?_text_ne

/-- Behind a slash a step does what it is, also a `.`, which is not seen there. -/
theorem foldl_below_text (h : c.IsStep) (stack : List Component) :
    (below c.text).foldl pushNormal stack = pushNormal stack c := by
  obtain ⟨hfirst, hroot⟩ := h
  cases hfirst with
  | root => exact absurd rfl hroot
  | current => rfl
  | inner h =>
    rw [h.below_text]
    rfl

end Component.IsStep

theorem IsWritten.isFirst {cs : List Component} (h : IsWritten cs) : ∀ c ∈ cs, c.IsFirst := by
  cases h with
  | nil => exact List.forall_mem_nil _
  | cons hfirst hrest => exact List.forall_mem_cons.mpr ⟨hfirst, fun c hc ↦ .inner (hrest c hc)⟩

/-- Steps that are pushed onto a text keep how it begins, and do what they are. -/
theorem foldl_pushText_steps {steps : List Component} (hsteps : ∀ c ∈ steps, c.IsStep)
    {cs : List Char} (hcs : cs ≠ []) :
    (steps.foldl (fun cs c ↦ pushText cs c.text) cs).head? = cs.head? ∧
      ∀ stack, (componentsOf (steps.foldl (fun cs c ↦ pushText cs c.text) cs)).foldl pushNormal stack
        = steps.foldl pushNormal ((componentsOf cs).foldl pushNormal stack) := by
  induction steps generalizing cs with
  | nil => exact ⟨rfl, fun _ ↦ rfl⟩
  | cons c steps ih =>
    rw [List.forall_mem_cons] at hsteps
    obtain ⟨hc, hsteps⟩ := hsteps
    obtain ⟨hhead, hfold⟩ := ih hsteps (pushText_ne_nil hcs hc.1.text_ne_nil)
    refine ⟨hhead.trans ?_, fun stack ↦ ?_⟩
    · obtain ⟨d, ds, rfl⟩ := List.exists_cons_of_ne_nil hcs
      rw [pushText, if_neg hc.head?_text_ne]
      split <;> rfl
    · rw [List.foldl_cons, hfold, componentsOf_pushText hcs hc.head?_text_ne, List.foldl_append,
        hc.foldl_below_text]
      rfl

/-- The path of steps is relative, and does to a stack what the steps do. -/
theorem foldl_pushNormal_ofSteps {steps : List Component} (hsteps : ∀ c ∈ steps, c.IsStep) :
    (ofSteps steps).isAbsolute = false ∧
      ∀ stack, (ofSteps steps).components.foldl pushNormal stack
        = steps.foldl pushNormal stack := by
  cases steps with
  | nil =>
    have hcomponents : (ofSteps []).components = [.current] := by decide +kernel
    exact ⟨by decide +kernel, fun stack ↦ by rw [hcomponents]; rfl⟩
  | cons first rest =>
    rw [List.forall_mem_cons] at hsteps
    obtain ⟨hfirst, hrest⟩ := hsteps
    have htext : textOf (first :: rest)
        = rest.foldl (fun cs c ↦ pushText cs c.text) first.text := by
      rw [textOf, List.foldl_cons, pushText_nil]
    obtain ⟨hhead, hfold⟩ := foldl_pushText_steps hrest hfirst.1.text_ne_nil
    rw [← htext] at hhead hfold
    have hpath : ofSteps (first :: rest) = ⟨String.ofList (textOf (first :: rest))⟩ := by
      rw [ofSteps]
      split
      · next hnil =>
        rw [hnil] at hhead
        exact absurd (List.head?_eq_none_iff.mp hhead.symm) hfirst.1.text_ne_nil
      · rfl
    rw [hpath]
    constructor
    · rw [isAbsolute_eq_false_iff, String.toList_ofList, hhead]
      exact hfirst.head?_text_ne
    · intro stack
      rw [components, String.toList_ofList, hfold, hfirst.1.componentsOf_text]
      rfl

/-! ### Where a relative path leads -/

section Leads

variable {source target : Path} {up down : List Component}

/-- If the way to another directory leaves nothing but names, it leads there. -/
theorem stack_join_relative_of_names
    (h : dropCommon source.normalize.components target.normalize.components = (up, down))
    (hup : ∀ c ∈ up, ∃ text, c = .name text) (hdown : .root ∉ down) :
    (relative source target).isAbsolute = false ∧
      (source.join (relative source target)).stack = target.stack := by
  obtain ⟨common, hsource, htarget⟩ :=
    dropCommon_append source.normalize.components target.normalize.components
  rw [h] at hsource htarget
  have hsteps : ∀ c ∈ up.map (fun _ ↦ Component.parent) ++ down, c.IsStep := by
    intro c hc
    rcases List.mem_append.mp hc with hc | hc
    · obtain ⟨-, -, rfl⟩ := List.mem_map.mp hc
      exact ⟨.inner .parent, by decide⟩
    · have hmem : c ∈ target.normalize.components := htarget ▸ List.mem_append_right _ hc
      exact ⟨(componentsOf_isWritten _).isFirst c hmem, fun hroot ↦ hdown (hroot ▸ hc)⟩
  obtain ⟨hrelative, hfold⟩ := foldl_pushNormal_ofSteps hsteps
  rw [← relative_eq h] at hrelative hfold
  refine ⟨hrelative, ?_⟩
  calc (source.join (relative source target)).stack
    _ = down.foldl pushNormal ((up.map fun _ ↦ .parent).foldl pushNormal source.stack) := by
      rw [stack_join hrelative, hfold, List.foldl_append]
    -- the steps up lead to what both have in common
    _ = down.foldl pushNormal (common.foldl pushNormal []) := by
      rw [← stack_normalize source, stack, hsource, List.foldl_append, foldl_pushNormal_back hup]
    _ = target.normalize.stack := by
      rw [← List.foldl_append, ← htarget]
      rfl
    _ = target.stack := stack_normalize target

/-- The path from one absolute directory to another is relative, and leads there. -/
theorem stack_join_relative (hsource : source.isAbsolute = true)
    (htarget : target.isAbsolute = true) :
    (relative source target).isAbsolute = false ∧
      (source.join (relative source target)).stack = target.stack := by
  have hsourceRooted := isRooted_stack hsource
  have htargetRooted := isRooted_stack htarget
  obtain ⟨names, -, hsourceNames⟩ := hsourceRooted.exists_names
  obtain ⟨names', -, htargetNames⟩ := htargetRooted.exists_names
  obtain ⟨common, hup, hdown⟩ := dropCommon_append (names.map .name) (names'.map .name)
  -- both begin with the root, which is common to them
  have hdrop : dropCommon source.normalize.components target.normalize.components
      = dropCommon (names.map .name) (names'.map .name) := by
    rw [components_normalize hsourceRooted.ne_nil, components_normalize htargetRooted.ne_nil,
      hsourceNames, htargetNames, dropCommon, if_pos rfl]
  refine stack_join_relative_of_names hdrop (fun c hc ↦ ?_) fun hroot ↦ ?_
  · have hmem : c ∈ names.map Component.name := hup ▸ List.mem_append_right _ hc
    obtain ⟨text, -, rfl⟩ := List.mem_map.mp hmem
    exact ⟨text, rfl⟩
  · have hmem : .root ∈ names'.map Component.name := hdown ▸ List.mem_append_right _ hroot
    simp at hmem

/-- The path from one relative directory to another is relative and leads there, if the first goes
nowhere upward and is not `.`. -/
theorem stack_join_relative_of_ne_nil (hsource : source.isAbsolute = false)
    (htarget : target.isAbsolute = false) (hne : source.stack ≠ [])
    (hparent : .parent ∉ source.normalize.components) :
    (source.join (relative source target)).stack = target.stack := by
  rcases hdrop : dropCommon source.normalize.components target.normalize.components
    with ⟨up, down⟩
  obtain ⟨common, hup, hdown⟩ :=
    dropCommon_append source.normalize.components target.normalize.components
  rw [hdrop] at hup hdown
  refine (stack_join_relative_of_names hdrop (fun c hc ↦ ?_) fun hroot ↦ ?_).2
  · have hmem : c ∈ source.normalize.components := hup ▸ List.mem_append_right _ hc
    cases c with
    | root => exact absurd hmem (root_not_mem_components_normalize hsource)
    | current => exact absurd hmem (isNormalForm_normalize hne).current
    | parent => exact absurd hmem hparent
    | name text => exact ⟨text, rfl⟩
  · exact root_not_mem_components_normalize htarget (hdown ▸ List.mem_append_right _ hroot)

/-- What stands on a stack without a root stands on it above a `..` too. -/
theorem foldl_pushNormal_reverse_parent {stack : List Component} (h : IsNormal stack)
    (hroot : .root ∉ stack) :
    stack.reverse.foldl pushNormal [.parent] = stack ++ [.parent] := by
  induction h with
  | root => exact absurd List.mem_cons_self hroot
  | parents n =>
    have hmore := foldl_pushNormal_replicate (n + 1)
    rw [List.replicate_succ, List.foldl_cons, ← List.replicate_succ, List.replicate_succ'] at hmore
    rw [List.reverse_replicate]
    exact hmore
  | name _ _ ih =>
    rw [List.mem_cons, not_or] at hroot
    rw [List.reverse_cons, List.foldl_append, ih hroot.2]
    rfl

/-- The path from `.` to any other relative directory goes up first, and leads to where the other is
seen from the directory above. -/
theorem stack_join_relative_of_current (hsource : source.stack = [])
    (htarget : target.isAbsolute = false) (hne : target.stack ≠ []) :
    (source.join (relative source target)).stack = target.stack ++ [.parent] := by
  have hroot := root_not_mem_components_normalize htarget
  have hcurrent := (isNormalForm_normalize hne).current
  have hdrop : dropCommon source.normalize.components target.normalize.components
      = ([.current], target.normalize.components) := by
    rw [components_normalize_of_stack_eq_nil hsource]
    cases htargetComponents : target.normalize.components with
    | nil => rfl
    | cons c cs =>
      have hc : Component.current ≠ c := fun heq ↦
        hcurrent (htargetComponents ▸ heq ▸ List.mem_cons_self)
      rw [dropCommon, if_neg hc]
  have hsteps : ∀ c ∈ [Component.current].map (fun _ ↦ Component.parent)
      ++ target.normalize.components, c.IsStep := by
    rw [List.map_singleton, List.singleton_append, List.forall_mem_cons]
    refine ⟨⟨.inner .parent, by decide⟩, fun c hc ↦ ?_⟩
    exact ⟨(componentsOf_isWritten _).isFirst c hc, fun heq ↦ hroot (heq ▸ hc)⟩
  obtain ⟨hrelative, hfold⟩ := foldl_pushNormal_ofSteps hsteps
  rw [← relative_eq hdrop] at hrelative hfold
  rw [stack_join hrelative, hfold, hsource, components_normalize hne, List.map_singleton,
    List.singleton_append, List.foldl_cons]
  exact foldl_pushNormal_reverse_parent target.isNormal_stack (root_not_mem_stack htarget)

end Leads

/-! ### Main results -/

/-- **A relative path leads where it should, unless it starts from `.`** Between two absolute
directories, or two relative ones of which the first does not go upward, the way that is read from
the first comes to the second exactly if the first is not `.`, or both are. -/
theorem relative_leads_iff (source target : Path)
    (hkind : source.isAbsolute = target.isAbsolute)
    (hparent : .parent ∉ source.normalize.components) :
    (relative source target).resolveAgainst source = target.normalize ↔
      (source.normalize = ⟨"."⟩ → target.normalize = ⟨"."⟩) := by
  rw [resolveAgainst_eq, normalize_eq_iff, normalize_eq_current_iff, normalize_eq_current_iff]
  cases hsource : source.isAbsolute with
  | true =>
    have hleads := (stack_join_relative hsource (hkind ▸ hsource)).2
    exact iff_of_true hleads fun hnil ↦ absurd hnil (isRooted_stack hsource).ne_nil
  | false =>
    have htarget : target.isAbsolute = false := hkind ▸ hsource
    by_cases hnil : source.stack = []
    · by_cases htargetNil : target.stack = []
      · have hdrop : dropCommon source.normalize.components target.normalize.components
            = ([], []) := by
          rw [components_normalize_of_stack_eq_nil hnil,
            components_normalize_of_stack_eq_nil htargetNil]
          rfl
        have hleads := (stack_join_relative_of_names hdrop (List.forall_mem_nil _)
          List.not_mem_nil).2
        exact iff_of_true hleads fun _ ↦ htargetNil
      · have hmisses := stack_join_relative_of_current hnil htarget htargetNil
        refine iff_of_false ?_ fun h ↦ htargetNil (h hnil)
        rw [hmisses]
        simp
    · exact iff_of_true (stack_join_relative_of_ne_nil hsource htarget hnil hparent)
        fun h ↦ absurd h hnil

/-- From a directory with a detour to one beside the directory above. -/
theorem relative_leads_beside :
    (Path.mk "a/b/../c").isAbsolute = (Path.mk "../d/./e").isAbsolute ∧
      .parent ∉ (Path.mk "a/b/../c").normalize.components ∧
      (relative ⟨"a/b/../c"⟩ ⟨"../d/./e"⟩).resolveAgainst ⟨"a/b/../c"⟩
        = (Path.mk "../d/./e").normalize := by
  have hkind : (Path.mk "a/b/../c").isAbsolute = (Path.mk "../d/./e").isAbsolute := by
    decide +kernel
  have hparent : .parent ∉ (Path.mk "a/b/../c").normalize.components := by decide +kernel
  have hsource : (Path.mk "a/b/../c").normalize ≠ ⟨"."⟩ := by decide +kernel
  exact ⟨hkind, hparent, (relative_leads_iff _ _ hkind hparent).mpr fun h ↦ absurd h hsource⟩

/-- The way from `.` to `a` goes up first, and comes to `../a`. -/
theorem relative_misses_from_current :
    ¬ ∀ source target : Path, source.isAbsolute = target.isAbsolute →
      .parent ∉ source.normalize.components →
      (relative source target).resolveAgainst source = target.normalize := by
  intro h
  have hleads := h ⟨"."⟩ ⟨"a"⟩ (by decide +kernel) (by decide +kernel)
  have hmisses : (relative ⟨"."⟩ ⟨"a"⟩).resolveAgainst ⟨"."⟩ = ⟨"../a"⟩ := by decide +kernel
  have htarget : (Path.mk "a").normalize = ⟨"a"⟩ := by decide +kernel
  rw [hmisses, htarget] at hleads
  exact absurd hleads (by decide)

end DocumentMath.Path
