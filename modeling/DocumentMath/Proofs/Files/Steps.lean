import DocumentMath.Files.Tree
import DocumentMath.Proofs.Path.Components

/-!
# The steps of a path

A tree of files reads a path as steps (`FileTree.stepsOf`), which differ from its components in that
every `.` counts. To join a path and a name is to take one step more (`FileTree.stepsOf_join`), and
a path that is made of components takes just these as steps (`FileTree.stepsOf_ofComponents`).
-/

namespace DocumentMath.FileTree

open DocumentMath.Path

/-- The steps of a text behind a slash. -/
def stepsBelow (cs : List Char) : List Component :=
  (segments cs).filterMap segmentComponent?

/-- The steps of a text. -/
def stepsIn (cs : List Char) : List Component :=
  (if cs.head? = some '/' then [.root] else []) ++ stepsBelow cs

theorem stepsOf_eq (path : Path) : stepsOf path = stepsIn path.text.toList := by
  simp only [stepsOf, stepsIn, stepsBelow, isAbsolute, beq_iff_eq]

theorem stepsBelow_append (cs ds : List Char) :
    stepsBelow (cs ++ '/' :: ds) = stepsBelow cs ++ stepsBelow ds := by
  rw [stepsBelow, segments_append, List.filterMap_append]
  rfl

/-- A relative text is pushed onto another one by taking its steps behind those of the other. -/
theorem stepsIn_pushText (cs : List Char) {added : List Char} (hadded : added.head? ≠ some '/') :
    stepsIn (pushText cs added) = stepsIn cs ++ stepsBelow added := by
  rw [pushText, if_neg hadded]
  cases cs with
  | nil => simp [stepsIn, hadded, show stepsBelow [] = [] from rfl]
  | cons c cs =>
    -- a slash that is there already makes an empty segment, which is no step
    split
    · next hlast =>
      obtain ⟨ds, hds⟩ := List.getLast?_eq_some_iff.mp (hlast.resolve_left (List.cons_ne_nil c cs))
      have hbelow : stepsBelow (ds ++ '/' :: []) = stepsBelow ds := by
        rw [stepsBelow_append]
        exact List.append_nil _
      have hhead : (ds ++ '/' :: added).head? = (ds ++ ['/']).head? := by
        cases ds <;> rfl
      rw [hds, List.append_assoc, List.singleton_append, stepsIn, stepsIn, stepsBelow_append,
        hbelow, hhead, List.append_assoc]
    · rw [List.cons_append, stepsIn, stepsIn, ← List.cons_append, stepsBelow_append,
        List.append_assoc]
      rfl

/-! ### Names -/

theorem stepsBelow_text {c : Component} (h : c.IsInner) : stepsBelow c.text = [c] := by
  rw [stepsBelow, segments_of_slash_not_mem h.slash_not_mem_text, List.filterMap_cons]
  cases h with
  | parent => rfl
  | name h =>
    obtain ⟨hne, -, hcurrent, hparent⟩ := h
    simp [segmentComponent?, Component.text, hne, hcurrent, hparent]

/-- To join a path and a name is to take one step more. -/
theorem stepsOf_join (path : Path) {name : String} (h : IsName name.toList) :
    stepsOf (path.join ⟨name⟩) = stepsOf path ++ [.name name.toList] := by
  have hinner : (Component.name name.toList).IsInner := .name h
  have hrelative : name.toList.head? ≠ some '/' := hinner.head?_text_ne
  have hbelow : stepsBelow name.toList = [.name name.toList] := stepsBelow_text hinner
  rw [stepsOf_eq, stepsOf_eq, join, String.toList_ofList, stepsIn_pushText _ hrelative, hbelow]

/-- No slash is behind a name. -/
theorem hasTrailingSlash_join (path : Path) {name : String} (h : IsName name.toList) :
    hasTrailingSlash (path.join ⟨name⟩) = false := by
  obtain ⟨hne, hslash, -⟩ := h
  have hbehind (cs : List Char) : (cs ++ name.toList).getLast? = name.toList.getLast? := by
    rw [List.getLast?_append, List.getLast?_eq_some_getLast hne, Option.some_or]
  have hlast : (pushText path.text.toList name.toList).getLast? = name.toList.getLast? := by
    rw [pushText, if_neg fun hhead ↦ hslash (List.mem_of_head? hhead)]
    split
    · exact hbehind _
    · rw [List.append_cons]
      exact hbehind _
  rw [hasTrailingSlash, join, String.toList_ofList, hlast, beq_eq_false_iff_ne]
  exact fun hlast ↦ hslash (List.mem_of_getLast? hlast)

/-! ### Components -/

theorem stepsIn_text {c : Component} (h : c.IsFirst) : stepsIn c.text = [c] := by
  cases h with
  | root => rfl
  | current => rfl
  | inner h => rw [stepsIn, if_neg h.head?_text_ne, stepsBelow_text h, List.nil_append]

theorem stepsIn_foldl_pushText {rest : List Component} (hrest : ∀ c ∈ rest, c.IsInner)
    (cs : List Char) :
    stepsIn (rest.foldl (fun cs c ↦ pushText cs c.text) cs) = stepsIn cs ++ rest := by
  induction rest generalizing cs with
  | nil => rw [List.foldl_nil, List.append_nil]
  | cons c rest ih =>
    rw [List.forall_mem_cons] at hrest
    obtain ⟨hc, hrest⟩ := hrest
    rw [List.foldl_cons, ih hrest, stepsIn_pushText _ hc.head?_text_ne, stepsBelow_text hc,
      List.append_assoc, List.singleton_append]

/-- A path that is made of components takes them as its steps. -/
theorem stepsOf_ofComponents {cs : List Component} (h : IsWritten cs) :
    stepsOf (.ofComponents cs) = cs := by
  rw [stepsOf_eq, ofComponents, String.toList_ofList]
  cases h with
  | nil => rfl
  | @cons first rest hfirst hrest =>
    rw [textOf, List.foldl_cons, pushText_nil, stepsIn_foldl_pushText hrest,
      stepsIn_text hfirst, List.singleton_append]

end DocumentMath.FileTree
