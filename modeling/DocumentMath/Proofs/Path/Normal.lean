import DocumentMath.Proofs.Path.Components

/-!
# The normal form of paths

To normalize a path, its components are pushed onto a stack, where `..` takes the name on top away.
The normal form is told by the stack alone (`normalize_eq_of_stack_eq`), and so are the laws of
normal forms: a stack is read back as itself (`foldl_pushNormal_reverse`), so that a path in normal
form has the stack it was made from (`stack_normalize`); and to join a path is to go on with the
stack of the directory (`stack_join`).

What a stack looks like is the invariant `IsNormal`: names on top of the root, or on top of any
number of `..`. If there is a root, nothing takes it away again (`IsRooted`).
-/

namespace DocumentMath.Path

/-! ### Stacks -/

/-- The components of the normal form, innermost first. -/
def stack (p : Path) : List Component :=
  p.components.foldl pushNormal []

/-- A stack on which nothing can be folded: names on the root, or on `..` that lead upward from the
start of a relative path. -/
inductive IsNormal : List Component → Prop
  | root : IsNormal [.root]
  | parents (n : Nat) : IsNormal (List.replicate n .parent)
  | name {text : List Char} {stack : List Component} (htext : IsName text)
      (hstack : IsNormal stack) : IsNormal (.name text :: stack)

/-- A stack of names on the root. -/
inductive IsRooted : List Component → Prop
  | root : IsRooted [.root]
  | name {text : List Char} {stack : List Component} (htext : IsName text)
      (hstack : IsRooted stack) : IsRooted (.name text :: stack)

section Push

variable {stack : List Component} {c : Component}

theorem pushNormal_replicate (n : Nat) :
    pushNormal (List.replicate n .parent) .parent = List.replicate (n + 1) .parent := by
  cases n <;> rfl

theorem IsNormal.push (h : IsNormal stack) (hc : c.IsInner) : IsNormal (pushNormal stack c) := by
  cases hc with
  | parent =>
    cases h with
    | root => exact .root
    | parents n =>
      rw [pushNormal_replicate]
      exact .parents (n + 1)
    | name htext hstack => exact hstack
  | name htext => exact .name htext h

theorem IsRooted.push (h : IsRooted stack) (hc : c.IsInner) : IsRooted (pushNormal stack c) := by
  cases hc with
  | parent =>
    cases h with
    | root => exact .root
    | name htext hstack => exact hstack
  | name htext => exact .name htext h

/-- What each inner component keeps, all of them keep. -/
theorem foldl_pushNormal_induction {motive : List Component → Prop}
    (hpush : ∀ stack c, motive stack → c.IsInner → motive (pushNormal stack c))
    {cs : List Component} (hcs : ∀ c ∈ cs, c.IsInner) (h : motive stack) :
    motive (cs.foldl pushNormal stack) := by
  induction cs generalizing stack with
  | nil => exact h
  | cons c cs ih =>
    rw [List.forall_mem_cons] at hcs
    exact ih hcs.2 (hpush stack c h hcs.1)

/-- A `.` leaves the stack as it is. -/
theorem foldl_pushNormal_of_relative {cs : List Char} (h : cs.head? ≠ some '/')
    (stack : List Component) :
    (componentsOf cs).foldl pushNormal stack = (below cs).foldl pushNormal stack := by
  rcases componentsOf_of_relative h with heq | ⟨-, heq⟩ <;> rw [heq]
  rfl

end Push

theorem isNormal_stack (p : Path) : IsNormal p.stack := by
  rw [stack, components]
  generalize p.text.toList = cs
  by_cases hslash : cs.head? = some '/'
  · obtain ⟨ds, rfl⟩ := List.head?_eq_some_iff.mp hslash
    rw [componentsOf_slash_cons, List.foldl_cons]
    exact foldl_pushNormal_induction (fun _ _ ↦ IsNormal.push) (fun _ ↦ isInner_of_mem_below) .root
  · rw [foldl_pushNormal_of_relative hslash]
    exact foldl_pushNormal_induction (fun _ _ ↦ IsNormal.push)
      (fun _ ↦ isInner_of_mem_below) (.parents 0)

/-! ### Reading a stack back -/

theorem foldl_pushNormal_replicate (n : Nat) :
    (List.replicate n Component.parent).foldl pushNormal [] = List.replicate n .parent := by
  induction n with
  | zero => rfl
  | succ n ih =>
    rw [List.replicate_succ', List.foldl_append, ih, List.foldl_cons, List.foldl_nil,
      pushNormal_replicate, List.replicate_succ']

/-- A stack on which nothing can be folded is what its components make. -/
theorem foldl_pushNormal_reverse {stack : List Component} (h : IsNormal stack) :
    stack.reverse.foldl pushNormal [] = stack := by
  induction h with
  | root => rfl
  | parents n => rw [List.reverse_replicate, foldl_pushNormal_replicate]
  | name htext hstack ih =>
    -- what is on top has been pushed last
    rw [List.reverse_cons, List.foldl_append, ih]
    rfl

theorem IsNormal.isWritten_reverse {stack : List Component} (h : IsNormal stack) :
    IsWritten stack.reverse := by
  induction h with
  | root => exact .cons .root fun _ hmem ↦ absurd hmem List.not_mem_nil
  | parents n =>
    rw [List.reverse_replicate]
    cases n with
    | zero => exact .nil
    | succ n =>
      refine .cons (.inner .parent) fun c hc ↦ ?_
      rw [List.eq_of_mem_replicate hc]
      exact .parent
  | name htext hstack ih =>
    rw [List.reverse_cons]
    exact ih.concat (.name htext)

/-! ### Normal forms -/

theorem normalize_eq_of_stack_eq {p q : Path} (h : p.stack = q.stack) :
    p.normalize = q.normalize := by
  have hcomponents : normalComponents p.components = normalComponents q.components :=
    congrArg List.reverse h
  rw [normalize, normalize, hcomponents]

theorem normalize_of_stack_eq_nil {p : Path} (h : p.stack = []) : p.normalize = ⟨"."⟩ := by
  have hcomponents : normalComponents p.components = [] := congrArg List.reverse h
  rw [normalize, hcomponents]

theorem normalize_of_stack_ne_nil {p : Path} (h : p.stack ≠ []) :
    p.normalize = ofComponents p.stack.reverse := by
  have hcomponents : normalComponents p.components = p.stack.reverse := rfl
  rw [normalize, hcomponents]
  split
  · next hnil => exact absurd (List.reverse_eq_nil_iff.mp hnil) h
  · rfl

/-- The components of the normal form are those on the stack. -/
theorem components_normalize {p : Path} (h : p.stack ≠ []) :
    p.normalize.components = p.stack.reverse := by
  rw [normalize_of_stack_ne_nil h, components_ofComponents p.isNormal_stack.isWritten_reverse]

/-- A path in normal form has the stack it was made from. -/
theorem stack_normalize (p : Path) : p.normalize.stack = p.stack := by
  by_cases hnil : p.stack = []
  · -- a `.` is written for the empty stack, and pushes nothing
    rw [normalize_of_stack_eq_nil hnil, hnil]
    decide +kernel
  · rw [stack, components_normalize hnil, foldl_pushNormal_reverse p.isNormal_stack]

/-- A path in normal form is not empty. -/
theorem text_normalize_ne_nil (p : Path) : p.normalize.text.toList ≠ [] := by
  by_cases hnil : p.stack = []
  · rw [normalize_of_stack_eq_nil hnil]
    decide +kernel
  · intro htext
    have hcomponents := components_normalize hnil
    rw [components, htext] at hcomponents
    exact hnil (List.reverse_eq_nil_iff.mp hcomponents.symm)

theorem normalize_normalize (p : Path) : p.normalize.normalize = p.normalize :=
  normalize_eq_of_stack_eq p.stack_normalize

/-! ### Absolute paths -/

theorem isAbsolute_iff {p : Path} : p.isAbsolute = true ↔ p.text.toList.head? = some '/' := by
  rw [isAbsolute, beq_iff_eq]

theorem isAbsolute_eq_false_iff {p : Path} :
    p.isAbsolute = false ↔ p.text.toList.head? ≠ some '/' := by
  rw [← Bool.not_eq_true, isAbsolute_iff]

/-- A path is absolute if its first component is the root. -/
theorem isAbsolute_iff_head?_components {p : Path} :
    p.isAbsolute = true ↔ p.components.head? = some .root := by
  rw [isAbsolute_iff, components]
  generalize p.text.toList = cs
  constructor
  · intro hslash
    obtain ⟨ds, rfl⟩ := List.head?_eq_some_iff.mp hslash
    rfl
  · intro hroot
    by_cases hslash : cs.head? = some '/'
    · exact hslash
    · rcases componentsOf_of_relative hslash with heq | ⟨-, heq⟩ <;> rw [heq] at hroot
      · exact absurd rfl (isInner_of_mem_below (List.mem_of_head? hroot)).ne_root
      · cases hroot

theorem isRooted_stack {p : Path} (h : p.isAbsolute = true) : IsRooted p.stack := by
  obtain ⟨ds, hds⟩ := List.head?_eq_some_iff.mp (isAbsolute_iff.mp h)
  rw [stack, components, hds, componentsOf_slash_cons, List.foldl_cons]
  exact foldl_pushNormal_induction (fun _ _ ↦ IsRooted.push) (fun _ ↦ isInner_of_mem_below) .root

theorem IsRooted.ne_nil {stack : List Component} (h : IsRooted stack) : stack ≠ [] := by
  cases h <;> exact List.cons_ne_nil _ _

/-- The components of an absolute path in normal form are the root and then names. -/
theorem IsRooted.exists_names {stack : List Component} (h : IsRooted stack) :
    ∃ names : List (List Char), (∀ text ∈ names, IsName text) ∧
      stack.reverse = .root :: names.map .name := by
  induction h with
  | root => exact ⟨[], fun _ hmem ↦ absurd hmem List.not_mem_nil, rfl⟩
  | @name text stack htext hstack ih =>
    obtain ⟨names, hnames, hreverse⟩ := ih
    refine ⟨names ++ [text], fun other hmem ↦ ?_, ?_⟩
    · rcases List.mem_append.mp hmem with hmem | hmem
      · exact hnames other hmem
      · rw [List.mem_singleton.mp hmem]
        exact htext
    · rw [List.reverse_cons, hreverse, List.map_append]
      rfl

/-! ### Joining -/

theorem join_of_isAbsolute {p q : Path} (h : q.isAbsolute = true) : p.join q = q := by
  rw [join, pushText, if_pos (isAbsolute_iff.mp h), String.ofList_toList]

/-- A relative path goes on with the stack of the directory. -/
theorem stack_join {p q : Path} (h : q.isAbsolute = false) :
    (p.join q).stack = q.components.foldl pushNormal p.stack := by
  have hslash := isAbsolute_eq_false_iff.mp h
  rw [components, foldl_pushNormal_of_relative hslash, stack, stack, components, components, join,
    String.toList_ofList]
  by_cases hp : p.text.toList = []
  · -- nothing is in front of `q`, so that a `.` at its beginning is seen
    rw [hp, pushText_nil, foldl_pushNormal_of_relative hslash]
    rfl
  · rw [componentsOf_pushText hp hslash, List.foldl_append]

/-- An absolute path is what it is in any directory, so that resolving a path is joining it. -/
theorem resolveAgainst_eq (p base : Path) : p.resolveAgainst base = (base.join p).normalize := by
  rw [resolveAgainst]
  split
  · next h => rw [join_of_isAbsolute h]
  · rfl

/-- What comes from the root is written with the root. -/
theorem isAbsolute_normalize_of_isRooted {p : Path} (h : IsRooted p.stack) :
    p.normalize.isAbsolute = true := by
  obtain ⟨names, -, hreverse⟩ := h.exists_names
  rw [isAbsolute_iff_head?_components, components_normalize h.ne_nil, hreverse]
  rfl

/-- The directory that a path stands in: the path without its last component. What ends in the root
stands in no directory. -/
def parent? (p : Path) : Option Path :=
  match p.components.getLast? with
  | none | some .root => none
  | some _ => some (ofComponents p.components.dropLast)

/-- A name in a directory stands in it. -/
theorem parent?_join {p q : Path} (hp : p.text.toList ≠ []) {text : List Char}
    (hq : q.components = [.name text]) :
    ∃ parent, (p.join q).parent? = some parent ∧ parent.normalize = p.normalize := by
  have hslash : q.text.toList.head? ≠ some '/' := by
    intro hslash
    have hroot := isAbsolute_iff_head?_components.mp (isAbsolute_iff.mpr hslash)
    rw [hq] at hroot
    cases hroot
  have hbelow : below q.text.toList = [.name text] := by
    rcases componentsOf_of_relative hslash with heq | ⟨-, heq⟩
    · exact heq.symm.trans hq
    · cases heq.symm.trans hq
  have hcomponents : (p.join q).components = p.components ++ [.name text] := by
    rw [components, join, String.toList_ofList, componentsOf_pushText hp hslash, hbelow]
    rfl
  refine ⟨ofComponents p.components, ?_, normalize_eq_of_stack_eq ?_⟩
  · rw [parent?, hcomponents, List.getLast?_concat, List.dropLast_concat]
  · have hwritten : IsWritten p.components := componentsOf_isWritten p.text.toList
    rw [stack, components_ofComponents hwritten]
    rfl

end DocumentMath.Path
