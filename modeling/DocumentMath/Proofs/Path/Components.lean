import DocumentMath.Path.Basic

/-!
# Paths and their components

A path is written as a text and read as components, and there are three ways from one to the other:
texts are put behind each other with a slash in between (`pushText`), components are pushed one by
one onto a text (`textOf`), and they are written with single slashes between them (`withSlashes`).
Each of them is shown to keep the components.

What is special about the first component is that it may be the root or a `.`; everything behind it
is a name or `..` (`IsWritten`). Behind a slash a text has the components `below`, whatever the text
in front of the slash is, and that is what the laws of putting texts together rest on.
-/

namespace DocumentMath.Path

/-! ### Segments -/

theorem segments_ne_nil (cs : List Char) : segments cs ≠ [] := by
  induction cs with
  | nil => exact List.cons_ne_nil _ _
  | cons c cs ih =>
    rw [segments]
    split
    · exact List.cons_ne_nil _ _
    · simpa using ih

theorem segments_append (cs ds : List Char) :
    segments (cs ++ '/' :: ds) = segments cs ++ segments ds := by
  induction cs with
  | nil => rfl
  | cons c cs ih =>
    rw [List.cons_append, segments, segments, ih]
    split
    · rfl
    · obtain ⟨first, rest, hsegments⟩ := List.exists_cons_of_ne_nil (segments_ne_nil cs)
      rw [hsegments]
      rfl

theorem slash_not_mem_of_mem_segments {cs segment : List Char} (h : segment ∈ segments cs) :
    '/' ∉ segment := by
  induction cs generalizing segment with
  | nil =>
    rw [List.mem_singleton.mp h]
    exact List.not_mem_nil
  | cons c cs ih =>
    rw [segments] at h
    split at h
    · rcases List.mem_cons.mp h with rfl | h
      · exact List.not_mem_nil
      · exact ih h
    · next hc =>
      obtain ⟨first, rest, hsegments⟩ := List.exists_cons_of_ne_nil (segments_ne_nil cs)
      rw [hsegments, List.modifyHead_cons] at h
      rw [hsegments] at ih
      rcases List.mem_cons.mp h with rfl | h
      · have hfirst : '/' ∉ first := ih List.mem_cons_self
        exact fun hmem ↦ (List.mem_cons.mp hmem).elim (fun heq ↦ hc heq.symm) hfirst
      · exact ih (List.mem_cons_of_mem _ h)

theorem segments_of_slash_not_mem {cs : List Char} (h : '/' ∉ cs) : segments cs = [cs] := by
  induction cs with
  | nil => rfl
  | cons c cs ih =>
    rw [List.mem_cons, not_or] at h
    rw [segments, if_neg (Ne.symm h.1), ih h.2]
    rfl

/-! ### Components behind a slash -/

/-- The components of a text behind a slash. -/
def below (cs : List Char) : List Component :=
  (segments cs).filterMap component?

theorem componentsOf_slash_cons (cs : List Char) :
    componentsOf ('/' :: cs) = .root :: below cs := rfl

/-- A text without slashes is a name, if it is longer than the special components are. -/
theorem componentsOf_of_slash_not_mem {cs : List Char} (h : '/' ∉ cs) (hlength : 2 < cs.length) :
    componentsOf cs = [.name cs] := by
  have hhead : cs.head? ≠ some '/' := fun hhead ↦ h (List.mem_of_head? hhead)
  have hne : ∀ special : List Char, special.length ≤ 2 → cs ≠ special := fun special hle heq ↦ by
    rw [heq] at hlength
    omega
  rw [componentsOf, segments_of_slash_not_mem h]
  simp [hhead, hne ['.'], component?, hne [], hne ['.', '.']]

/-- The components of a relative text are those behind a slash, and a `.` if it begins so. -/
theorem componentsOf_of_relative {cs : List Char} (h : cs.head? ≠ some '/') :
    componentsOf cs = below cs ∨
      (segments cs).head? = some ['.'] ∧ componentsOf cs = .current :: below cs := by
  obtain ⟨first, rest, hsegments⟩ := List.exists_cons_of_ne_nil (segments_ne_nil cs)
  rw [componentsOf, below, hsegments, List.filterMap_cons]
  simp only [if_neg h]
  by_cases hfirst : first = ['.']
  · right
    subst hfirst
    exact ⟨rfl, rfl⟩
  · left
    rw [if_neg hfirst]
    cases component? first <;> rfl

theorem componentsOf_of_segments {cs first : List Char} {rest : List (List Char)}
    (h : segments cs = first :: rest) :
    componentsOf cs = (if cs.head? = some '/' then [Component.root]
      else if first = ['.'] then [.current]
      else (component? first).toList) ++ rest.filterMap component? := by
  rw [componentsOf, h]

/-- What is put behind a slash does not change the components in front of it. -/
theorem componentsOf_append {cs : List Char} (h : cs ≠ []) (ds : List Char) :
    componentsOf (cs ++ '/' :: ds) = componentsOf cs ++ below ds := by
  obtain ⟨c, cs, rfl⟩ := List.exists_cons_of_ne_nil h
  obtain ⟨first, rest, hsegments⟩ := List.exists_cons_of_ne_nil (segments_ne_nil (c :: cs))
  have hsegments' : segments (c :: cs ++ '/' :: ds) = first :: (rest ++ segments ds) := by
    rw [segments_append, hsegments, List.cons_append]
  rw [componentsOf_of_segments hsegments', componentsOf_of_segments hsegments,
    List.filterMap_append, List.append_assoc]
  rfl

/-! ### Written components -/

/-- A text that may stand between slashes and is a name there. -/
def IsName (text : List Char) : Prop :=
  text ≠ [] ∧ '/' ∉ text ∧ text ≠ ['.'] ∧ text ≠ ['.', '.']

/-- A component that may stand behind others: a name or `..`. -/
inductive Component.IsInner : Component → Prop
  | parent : IsInner .parent
  | name {text : List Char} (h : IsName text) : IsInner (.name text)

/-- A component that may stand in front: any that may stand behind others, the root, or a `.`. -/
inductive Component.IsFirst : Component → Prop
  | root : IsFirst .root
  | current : IsFirst .current
  | inner {c : Component} (h : c.IsInner) : IsFirst c

/-- Components as a text has them. -/
inductive IsWritten : List Component → Prop
  | nil : IsWritten []
  | cons {first : Component} {rest : List Component} (hfirst : first.IsFirst)
      (hrest : ∀ c ∈ rest, c.IsInner) : IsWritten (first :: rest)

theorem isInner_of_component? {segment : List Char} {c : Component} (hslash : '/' ∉ segment)
    (h : component? segment = some c) : c.IsInner := by
  rw [component?] at h
  split at h
  · cases h
  · next hcounts =>
    rw [not_or] at hcounts
    split at h <;> cases h
    · exact .parent
    · next hparent => exact .name ⟨hcounts.1, hslash, hcounts.2, hparent⟩

theorem isInner_of_mem_below {cs : List Char} {c : Component} (h : c ∈ below cs) : c.IsInner := by
  obtain ⟨segment, hsegment, hc⟩ := List.mem_filterMap.mp h
  exact isInner_of_component? (slash_not_mem_of_mem_segments hsegment) hc

theorem componentsOf_isWritten (cs : List Char) : IsWritten (componentsOf cs) := by
  by_cases hslash : cs.head? = some '/'
  · obtain ⟨ds, rfl⟩ := List.head?_eq_some_iff.mp hslash
    rw [componentsOf_slash_cons]
    exact .cons .root fun c ↦ isInner_of_mem_below
  · rcases componentsOf_of_relative hslash with heq | ⟨-, heq⟩ <;> rw [heq]
    · cases hbelow : below cs with
      | nil => exact .nil
      | cons first rest =>
        have hinner : ∀ c ∈ first :: rest, c.IsInner := fun c hc ↦
          isInner_of_mem_below (hbelow ▸ hc)
        rw [List.forall_mem_cons] at hinner
        exact .cons (.inner hinner.1) hinner.2
    · exact .cons .current fun c ↦ isInner_of_mem_below

theorem IsWritten.concat {cs : List Component} (h : IsWritten cs) {c : Component}
    (hc : c.IsInner) : IsWritten (cs ++ [c]) := by
  cases h with
  | nil => exact .cons (.inner hc) fun _ hmem ↦ absurd hmem List.not_mem_nil
  | cons hfirst hrest =>
    refine .cons hfirst fun d hd ↦ ?_
    rcases List.mem_append.mp hd with hd | hd
    · exact hrest d hd
    · rw [List.mem_singleton.mp hd]
      exact hc

namespace Component.IsInner

variable {c : Component}

theorem text_ne_nil (h : c.IsInner) : c.text ≠ [] := by
  cases h with
  | parent => exact List.cons_ne_nil _ _
  | name h => exact h.1

theorem slash_not_mem_text (h : c.IsInner) : '/' ∉ c.text := by
  cases h with
  | parent => decide
  | name h => exact h.2.1

/-- Its text is relative. -/
theorem head?_text_ne (h : c.IsInner) : c.text.head? ≠ some '/' :=
  fun hhead ↦ h.slash_not_mem_text (List.mem_of_head? hhead)

theorem below_text (h : c.IsInner) : below c.text = [c] := by
  rw [below, segments_of_slash_not_mem h.slash_not_mem_text, List.filterMap_cons]
  cases h with
  | parent => rfl
  | name h =>
    obtain ⟨hne, -, hcurrent, hparent⟩ := h
    simp [component?, Component.text, hne, hcurrent, hparent]

theorem text_ne_current (h : c.IsInner) : c.text ≠ ['.'] := by
  cases h with
  | parent => decide
  | name h => exact h.2.2.1

theorem ne_root (h : c.IsInner) : c ≠ .root := by
  rintro rfl
  cases h

end Component.IsInner

theorem Component.IsFirst.text_ne_nil {c : Component} (h : c.IsFirst) : c.text ≠ [] := by
  cases h with
  | root => exact List.cons_ne_nil _ _
  | current => exact List.cons_ne_nil _ _
  | inner h => exact h.text_ne_nil

theorem Component.IsFirst.componentsOf_text {c : Component} (h : c.IsFirst) :
    componentsOf c.text = [c] := by
  cases h with
  | root => rfl
  | current => rfl
  | inner h =>
    rcases componentsOf_of_relative h.head?_text_ne with heq | ⟨hcurrent, -⟩
    · exact heq.trans h.below_text
    · rw [segments_of_slash_not_mem h.slash_not_mem_text, List.head?_cons] at hcurrent
      exact absurd (Option.some.inj hcurrent) h.text_ne_current

/-! ### Texts of components -/

/-- A relative text is pushed onto another as if behind a slash. -/
theorem componentsOf_pushText {cs added : List Char} (hcs : cs ≠ [])
    (hadded : added.head? ≠ some '/') :
    componentsOf (pushText cs added) = componentsOf cs ++ below added := by
  rw [pushText, if_neg hadded]
  split
  · next hlast =>
    -- the slash that is there already makes an empty segment, which does not count
    obtain ⟨ds, rfl⟩ := List.getLast?_eq_some_iff.mp (hlast.resolve_left hcs)
    rw [List.append_assoc, List.singleton_append]
    cases ds with
    | nil => rfl
    | cons d ds =>
      rw [componentsOf_append (List.cons_ne_nil d ds), componentsOf_append (List.cons_ne_nil d ds)]
      simp [show below [] = [] from rfl]
  · exact componentsOf_append hcs added

theorem pushText_ne_nil {cs added : List Char} (hcs : cs ≠ []) (hadded : added ≠ []) :
    pushText cs added ≠ [] := by
  rw [pushText]
  split
  · exact hadded
  · split <;> simp [hcs]

theorem pushText_nil (added : List Char) : pushText [] added = added := by
  simp [pushText]

theorem componentsOf_foldl_pushText {rest : List Component} (hrest : ∀ c ∈ rest, c.IsInner)
    {cs : List Char} (hcs : cs ≠ []) :
    componentsOf (rest.foldl (fun cs c ↦ pushText cs c.text) cs) = componentsOf cs ++ rest := by
  induction rest generalizing cs with
  | nil => rw [List.foldl_nil, List.append_nil]
  | cons c rest ih =>
    rw [List.forall_mem_cons] at hrest
    obtain ⟨hc, hrest⟩ := hrest
    rw [List.foldl_cons, ih hrest (pushText_ne_nil hcs hc.text_ne_nil),
      componentsOf_pushText hcs hc.head?_text_ne, hc.below_text, List.append_assoc,
      List.singleton_append]

/-- Written components are those of their text. -/
theorem componentsOf_textOf {cs : List Component} (h : IsWritten cs) :
    componentsOf (textOf cs) = cs := by
  cases h with
  | nil => rfl
  | @cons first rest hfirst hrest =>
    rw [textOf, List.foldl_cons, pushText_nil,
      componentsOf_foldl_pushText hrest hfirst.text_ne_nil, hfirst.componentsOf_text,
      List.singleton_append]

theorem components_ofComponents {cs : List Component} (h : IsWritten cs) :
    (ofComponents cs).components = cs := by
  rw [components, ofComponents, String.toList_ofList, componentsOf_textOf h]

/-! ### Components with slashes between them -/

end DocumentMath.Path
