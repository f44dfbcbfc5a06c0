import DocumentMath.Proofs.Document.Sites

/-!
# The attributes in force

A document in a cell extends the attributes of the document around it. So the value of a name at a
site is looked up in the documents around the site, from the innermost outward, and the first one
that gives the name a value counts (`Document.get?_of_mem_sites`).
-/

namespace DocumentMath

namespace Attributes

theorem find?_insertEntry (name value other : String) (es : List (String × String)) :
    ((insertEntry name value es).find? (·.1 == other)).map (·.2)
      = if name = other then some value else (es.find? (·.1 == other)).map (·.2) := by
  induction es with
  | nil =>
    by_cases h : name = other <;> simp [insertEntry, h]
  | cons e es ih =>
    rw [insertEntry]
    split
    · by_cases h : name = other <;> simp [List.find?_cons, h]
    · split
      · next heq =>
        subst heq
        by_cases h : e.1 = other <;> simp [h]
      · next hne =>
        by_cases h : e.1 = other
        · subst h
          simp [hne]
        · simp [h, ih]

theorem get?_insert (a : Attributes) (name value other : String) :
    (a.insert name value).get? other = if name = other then some value else a.get? other :=
  find?_insertEntry name value other a.entries

theorem get?_foldl_insert (name : String) {es : List (String × String)} (hes : NamesIncrease es)
    (a : Attributes) :
    (es.foldl (fun m e ↦ m.insert e.1 e.2) a).get? name
      = ((es.find? (·.1 == name)).map (·.2)).or (a.get? name) := by
  induction es generalizing a with
  | nil => rfl
  | cons e es ih =>
    obtain ⟨hlater, hincrease⟩ := List.pairwise_cons.mp hes
    rw [List.foldl_cons, ih hincrease, get?_insert]
    by_cases h : e.1 = name
    · -- the names increase, so no later entry has the name
      have hnone : es.find? (·.1 == name) = none := List.find?_eq_none.mpr fun f hf ↦ by
        rw [beq_iff_eq, ← h]
        exact (String.ne_of_lt (hlater f hf)).symm
      rw [hnone, if_pos h, List.find?_cons_of_pos (by rw [h, beq_self_eq_true])]
      rfl
    · rw [if_neg h, List.find?_cons_of_neg (by rwa [beq_iff_eq])]

/-- What extends a map counts where it has a value. -/
theorem get?_extend (a b : Attributes) (name : String) :
    (a.extend b).get? name = (b.get? name).or (a.get? name) :=
  get?_foldl_insert name b.increasing a

end Attributes

namespace Document

/-- The documents that cells on a way inward hold, from the innermost outward. -/
def entered (d : Document) : List NodePath → List Document
  | [] => []
  | path :: way => ((d.inner? path).map fun inner ↦ inner.entered way ++ [inner]).getD []

/-- The documents around what paths lead to, from the innermost outward. -/
def enclosing (d : Document) (within : List NodePath) : List Document :=
  d.entered within ++ [d]

/-- The value of a name in the first document that gives it one. -/
def value? (name : String) (ds : List Document) : Option String :=
  ds.findSome? (·.attribute? name)

theorem exists_way_of_mem_sitesWithin (d : Document) : ∀ {within : List NodePath}
    {attributes : Attributes} {s : Site}, s ∈ d.sitesWithin within attributes →
      ∃ way, s.within = within ++ way ∧
        ∀ name, s.attributes.get? name = (value? name (d.entered way)).or (attributes.get? name) := by
  induction d using inner_induction with
  | h d ih =>
    intro within attributes s hs
    rw [sitesWithin_eq_flatMap] at hs
    obtain ⟨c, -, hs⟩ := List.mem_flatMap.mp hs
    rcases mem_sitesOf_singleton hs with rfl | ⟨inner, -, hinner, hs⟩
    · exact ⟨[], (List.append_nil _).symm, fun _ ↦ rfl⟩
    · -- the document in the cell is outside of all that are entered from it
      obtain ⟨way, hway, hvalue⟩ := ih c.path inner hinner hs
      refine ⟨c.path :: way, by rw [hway, List.append_assoc, List.singleton_append], fun name ↦ ?_⟩
      have hentered : d.entered (c.path :: way) = inner.entered way ++ [inner] := by
        rw [entered, hinner, Option.map_some, Option.getD_some]
      rw [hvalue, hentered, Attributes.get?_extend, value?, value?, List.findSome?_append,
        List.findSome?_singleton, Option.or_assoc]
      rfl

/-- The value of a name at a site is the one that the innermost document around the site gives it.
-/
theorem get?_of_mem_sites {d : Document} {s : Site} (h : s ∈ d.sites) (name : String) :
    s.attributes.get? name = value? name (d.enclosing s.within) := by
  obtain ⟨way, hway, hvalue⟩ := d.exists_way_of_mem_sitesWithin h
  rw [List.nil_append] at hway
  rw [hvalue, hway, enclosing, value?, value?, List.findSome?_append, List.findSome?_singleton]
  rfl

end Document

end DocumentMath
